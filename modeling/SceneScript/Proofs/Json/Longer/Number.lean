import SceneScript.Proofs.Json.Longer.Basic
import SceneScript.Proofs.Json.NumberLiteral

/-!
Numbers in longer texts. A number ends where something follows that is no part of it. At the end
of a text a longer text may go on with it, and then it is another number.
-/
namespace SceneScript.Json

open Scan

/-- Digits stay where they are in a longer text, if something stood behind them already. -/
private theorem digits_append {cs : List Char} (h : SomeLeft (cs.dropWhile Char.isDigit))
    (more : List Char) :
    (cs ++ more).takeWhile Char.isDigit = cs.takeWhile Char.isDigit ∧
      (cs ++ more).dropWhile Char.isDigit = cs.dropWhile Char.isDigit ++ more := by
  induction cs with
  | nil => exact absurd rfl h
  | cons c cs ih =>
    cases hc : c.isDigit with
    | true =>
      simp only [List.cons_append, List.takeWhile_cons, List.dropWhile_cons, hc, if_true] at h ⊢
      obtain ⟨htake, hdrop⟩ := ih h
      exact ⟨congrArg (c :: ·) htake, hdrop⟩
    | false => simp [hc]

/-- Digits are taken as far as they go, and what comes out is computed from them. -/
private theorem delimited_of_digits {α : Type} {scan : Scan α} (value : List Char → Option α)
    (h : ∀ cs, scan.success cs =
      (value (cs.takeWhile Char.isDigit)).map fun a => (a, cs.dropWhile Char.isDigit)) :
    Delimited scan := by
  intro cs a rest hok hrest more
  rw [h] at hok
  obtain ⟨b, hb, heq⟩ := Option.map_eq_some_iff.mp hok
  obtain ⟨rfl, rfl⟩ := Prod.mk.inj heq
  obtain ⟨htake, hdrop⟩ := digits_append hrest more
  rw [h, htake, hdrop, hb, Option.map_some]

private theorem delimited_takeDigits : Delimited takeDigits :=
  delimited_of_digits some fun _ => rfl

private theorem delimited_fractionDigits (x : Scaled) : Delimited (fractionDigits x) := by
  apply delimited_of_digits fun ds => if ds = [] then none else
    some ⟨(absorb wordBound x.significand ds).1,
      x.power - (ds.length - (absorb wordBound x.significand ds).2.length : Nat)⟩
  intro cs
  cases cs with
  | nil => rfl
  | cons c tail => cases hc : c.isDigit <;> simp [success, fractionDigits, hc, failAtNext]

/-- The number that the digits of an exponent make, once all of them are read. -/
def numberOfExponent (isNegative : Bool) (x : Scaled) (isDown : Bool) (ds : List Char) :
    Option Number :=
  if ds = [] then none
  else
    match absorb exponentBound 0 ds with
    | (power, []) =>
      binary? isNegative ⟨x.significand, if isDown then x.power - power else x.power + power⟩
    | (_, _ :: _) =>
      if x.significand = 0 ∨ isDown then some (.binary isNegative .zero) else none

private theorem delimited_exponentDigits (isNegative : Bool) (x : Scaled) (isDown : Bool) :
    Delimited (exponentDigits isNegative x isDown) := by
  apply delimited_of_digits (numberOfExponent isNegative x isDown)
  intro cs
  cases cs with
  | nil => rfl
  | cons c tail =>
    cases hc : c.isDigit with
    | false => simp [success, exponentDigits, numberOfExponent, hc, failAtNext]
    | true =>
      have hne : (c :: tail).takeWhile Char.isDigit ≠ [] := by simp [hc]
      simp only [success, exponentDigits, numberOfExponent, hc, if_true, if_neg hne]
      cases absorb exponentBound 0 ((c :: tail).takeWhile Char.isDigit) with
      | mk power left =>
        cases left with
        | nil => exact success_toBinary isNegative _ _
        | cons d left => split_ifs <;> rfl

private theorem delimited_skipDigits : Delimited skipDigits := by
  apply delimited_of_digits fun ds => if ds = [] then none else some ()
  intro cs
  cases cs with
  | nil => rfl
  | cons c tail => cases hc : c.isDigit <;> simp [success, skipDigits, hc, failAtNext]

private theorem delimited_wholeDigits : Delimited wholeDigits := by
  intro cs ds rest hok hrest more
  cases cs with
  | nil => simp [success, wholeDigits, failHere] at hok
  | cons c tail =>
    simp only [success, wholeDigits, List.cons_append] at hok ⊢
    split_ifs at hok ⊢
    · cases tail with
      | nil =>
        obtain ⟨_, rfl⟩ : ['0'] = ds ∧ [] = rest := by simpa using hok
        exact absurd rfl hrest
      | cons d tail =>
        simp only [List.cons_append] at hok ⊢
        split_ifs at hok ⊢
        · simp [failAtNext] at hok
        · obtain ⟨rfl, rfl⟩ : ['0'] = ds ∧ d :: tail = rest := by simpa using hok
          rfl
    · exact delimited_takeDigits (c :: tail) ds rest hok hrest more
    · simp [failAtNext] at hok

private theorem delimited_exponentSign : Delimited exponentSign := by
  intro cs isDown rest hok hrest more
  cases cs with
  | nil =>
    obtain ⟨_, rfl⟩ : false = isDown ∧ [] = rest := by simpa [success, exponentSign] using hok
    exact absurd rfl hrest
  | cons c tail =>
    by_cases hplus : c = '+'
    · subst hplus
      obtain ⟨rfl, rfl⟩ : false = isDown ∧ tail = rest := by
        simpa [success, exponentSign] using hok
      rfl
    by_cases hminus : c = '-'
    · subst hminus
      obtain ⟨rfl, rfl⟩ : true = isDown ∧ tail = rest := by
        simpa [success, exponentSign] using hok
      rfl
    · obtain ⟨rfl, rfl⟩ : false = isDown ∧ c :: tail = rest := by
        simpa [success, exponentSign, hplus, hminus] using hok
      simp [success, exponentSign, hplus, hminus]

private theorem delimited_exponentPart (isNegative : Bool) (x : Scaled) :
    Delimited (exponentPart isNegative x) := by
  apply delimited_exponentSign.bind_of_some (delimited_exponentDigits isNegative x)
  intro isDown n rest hok
  simp [success, exponentDigits, failHere] at hok

/-- What may come instead of an exponent takes in nothing. -/
private theorem delimited_afterDigits (isNegative : Bool) (x : Scaled) {otherwise : Scan Number}
    {value : Option Number} (h : ∀ cs, otherwise.success cs = value.map fun n => (n, cs)) :
    Delimited (afterDigits isNegative x otherwise) := by
  intro cs n rest hok hrest more
  cases cs with
  | nil =>
    have hnil : otherwise.success [] = some (n, rest) := hok
    rw [h] at hnil
    obtain ⟨_, _, heq⟩ := Option.map_eq_some_iff.mp hnil
    exact absurd (congrArg Prod.snd heq).symm hrest
  | cons c tail =>
    by_cases hletter : c = 'e' ∨ c = 'E'
    · have hpart : (exponentPart isNegative x).success tail = some (n, rest) := by
        simpa only [success, afterDigits, if_pos hletter] using hok
      simpa only [success, List.cons_append, afterDigits, if_pos hletter] using
        delimited_exponentPart isNegative x tail n rest hpart hrest more
    · have hother : otherwise.success (c :: tail) = some (n, rest) := by
        simpa only [success, afterDigits, if_neg hletter] using hok
      rw [h] at hother
      obtain ⟨m, hm, heq⟩ := Option.map_eq_some_iff.mp hother
      obtain ⟨rfl, rfl⟩ := Prod.mk.inj heq
      have hlonger := h (c :: (tail ++ more))
      rw [hm, Option.map_some] at hlonger
      simpa only [success, List.cons_append, afterDigits, if_neg hletter] using hlonger

private theorem delimited_behindPoint (isNegative : Bool) (x : Scaled) :
    Delimited (fractionDigits x >>= fun y => afterDigits isNegative y (toBinary isNegative y)) := by
  apply (delimited_fractionDigits x).bind_of_some
  · intro y
    exact delimited_afterDigits isNegative y (success_toBinary isNegative y)
  · intro y n rest hok hrest
    have hbinary : (toBinary isNegative y).success [] = some (n, rest) := hok
    rw [success_toBinary] at hbinary
    obtain ⟨_, _, heq⟩ := Option.map_eq_some_iff.mp hbinary
    exact absurd (congrArg Prod.snd heq).symm hrest

private theorem success_behindWhole_point (isNegative : Bool) (x : Scaled) (tail : List Char) :
    (behindWhole isNegative x).success ('.' :: tail) =
      (fractionDigits x >>= fun y => afterDigits isNegative y (toBinary isNegative y)).success
        tail := by
  rw [success_bind]
  simp only [success, behindWhole]
  cases fractionDigits x tail <;> rfl

private theorem success_behindWhole_of_ne (isNegative : Bool) (x : Scaled) {cs : List Char}
    (h : ∀ c ∈ cs.head?, c ≠ '.') :
    (behindWhole isNegative x).success cs =
      (afterDigits isNegative x (wholeNumber isNegative x)).success cs := by
  rw [success, NumberLiteral.behindWhole_of_ne_point h, ← success]

/-- A whole number at the very end leaves nothing over. -/
private theorem left_of_behindWhole_nil {isNegative : Bool} {x : Scaled} {n : Number}
    {rest : List Char} (h : (behindWhole isNegative x).success [] = some (n, rest)) :
    ¬ SomeLeft rest := by
  have hwhole : (wholeNumber isNegative x).success [] = some (n, rest) := h
  rw [success_wholeNumber] at hwhole
  obtain ⟨_, _, heq⟩ := Option.map_eq_some_iff.mp hwhole
  exact fun hrest => hrest (congrArg Prod.snd heq).symm

private theorem delimited_behindWhole (isNegative : Bool) (x : Scaled) :
    Delimited (behindWhole isNegative x) := by
  intro cs n rest hok hrest more
  cases cs with
  | nil => exact absurd hrest (left_of_behindWhole_nil hok)
  | cons c tail =>
    by_cases hpoint : c = '.'
    · subst hpoint
      rw [success_behindWhole_point] at hok
      rw [List.cons_append, success_behindWhole_point]
      exact delimited_behindPoint isNegative x tail n rest hok hrest more
    · have hhead (cs : List Char) : ∀ d ∈ (c :: cs).head?, d ≠ '.' := by simpa using hpoint
      rw [success_behindWhole_of_ne isNegative x (hhead tail)] at hok
      rw [List.cons_append, success_behindWhole_of_ne isNegative x (hhead (tail ++ more))]
      exact delimited_afterDigits isNegative x (success_wholeNumber isNegative x) (c :: tail) n rest
        hok hrest more

/-- A number could go on, so something must be left over for it to stay the same number. -/
theorem delimited_readNumber (isNegative : Bool) : Delimited (readNumber isNegative) := by
  apply delimited_wholeDigits.bind_of_some
  · intro ds
    exact delimited_behindWhole isNegative _
  · intro ds n rest hok
    exact left_of_behindWhole_nil hok

/-! Passing over a number -/

private theorem delimited_skipScale : Delimited (exponentSign >>= fun _ => skipDigits) := by
  apply delimited_exponentSign.bind_of_some fun _ => delimited_skipDigits
  intro _ u rest hok
  simp [success, skipDigits, failAtNext] at hok

private theorem success_skipExponent_letter {c : Char} (h : c = 'e' ∨ c = 'E')
    (tail : List Char) :
    skipExponent.success (c :: tail) = (exponentSign >>= fun _ => skipDigits).success tail := by
  rw [success_bind]
  cases tail with
  | nil => simp [success, skipExponent, h, exponentSign]
  | cons d tail =>
    by_cases hplus : d = '+'
    · subst hplus
      simp [success, skipExponent, h, exponentSign]
    by_cases hminus : d = '-'
    · subst hminus
      simp [success, skipExponent, h, exponentSign]
    · simp [success, skipExponent, h, exponentSign, hplus, hminus]

private theorem delimited_skipExponent : Delimited skipExponent := by
  intro cs u rest hok hrest more
  cases cs with
  | nil =>
    obtain rfl : [] = rest := by simpa [success, skipExponent] using hok
    exact absurd rfl hrest
  | cons c tail =>
    by_cases hletter : c = 'e' ∨ c = 'E'
    · rw [success_skipExponent_letter hletter] at hok
      rw [List.cons_append, success_skipExponent_letter hletter]
      exact delimited_skipScale tail u rest hok hrest more
    · obtain rfl : c :: tail = rest := by simpa [success, skipExponent, hletter] using hok
      simp [success, skipExponent, hletter]

private theorem delimited_skipWhole : Delimited skipWhole := by
  intro cs u rest hok hrest more
  by_cases hzero : cs.head? = some '0'
  · obtain ⟨tail, rfl⟩ : ∃ tail, cs = '0' :: tail := List.head?_eq_some_iff.mp hzero
    cases tail with
    | nil =>
      obtain rfl : [] = rest := by simpa [success, skipWhole, skipDigits] using hok
      exact absurd rfl hrest
    | cons c tail =>
      cases hc : c.isDigit with
      | true => simp [success, skipWhole, hc, failAtNext] at hok
      | false =>
        obtain rfl : c :: tail = rest := by simpa [success, skipWhole, hc] using hok
        simp [success, skipWhole, hc]
  · have hdigits : skipDigits.success cs = some (u, rest) := by
      rw [← hok, success, success, NumberLiteral.skipWhole_of_ne_zero hzero]
    have hlonger : (cs ++ more).head? ≠ some '0' := by
      cases cs with
      | nil => simp [success, skipDigits, failAtNext] at hdigits
      | cons c tail => simpa using hzero
    rw [success, NumberLiteral.skipWhole_of_ne_zero hlonger, ← success]
    exact delimited_skipDigits cs u rest hdigits hrest more

private theorem delimited_skipBehindPoint : Delimited (skipDigits >>= fun _ => skipExponent) := by
  apply delimited_skipDigits.bind_of_some fun _ => delimited_skipExponent
  intro _ u rest hok hrest
  obtain rfl : [] = rest := by simpa [success, skipExponent] using hok
  exact hrest rfl

private theorem delimited_skipBehindWhole : Delimited skipBehindWhole := by
  intro cs u rest hok hrest more
  by_cases hpoint : ∃ tail, cs = '.' :: tail
  · obtain ⟨tail, rfl⟩ := hpoint
    exact delimited_skipBehindPoint tail u rest hok hrest more
  · have hhead : ∀ c ∈ cs.head?, c ≠ '.' := by
      intro c hc heq
      subst heq
      exact hpoint (List.head?_eq_some_iff.mp hc)
    have hexponent : skipExponent.success cs = some (u, rest) := by
      rw [← hok, success, success, NumberLiteral.skipBehindWhole_of_ne_point hhead]
    have hlonger : ∀ c ∈ (cs ++ more).head?, c ≠ '.' := by
      cases cs with
      | nil =>
        obtain rfl : [] = rest := by simpa [success, skipExponent] using hexponent
        exact absurd rfl hrest
      | cons c tail => simpa using hhead
    rw [success, NumberLiteral.skipBehindWhole_of_ne_point hlonger, ← success]
    exact delimited_skipExponent cs u rest hexponent hrest more

/-- The same is needed for a number that is passed over. -/
theorem delimited_skipNumber : Delimited skipNumber := by
  apply delimited_skipWhole.bind_of_some fun _ => delimited_skipBehindWhole
  intro _ u rest hok hrest
  obtain rfl : [] = rest := by simpa [success, skipBehindWhole, skipExponent] using hok
  exact hrest rfl

end SceneScript.Json
