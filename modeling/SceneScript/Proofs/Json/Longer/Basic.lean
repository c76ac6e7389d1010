import SceneScript.Proofs.Json.Success
import Mathlib.Tactic.SplitIfs

/-!
Texts that go on. A reader does not look behind what it takes in, except to see that a number is
over; so whatever it reads from a text it reads from every longer text too, if only something is
left over behind a number.
-/
namespace SceneScript.Json

namespace Scan

variable {α β : Type}

/-- The wider reader reads from every longer text what the other reads from the text, provided
that what is left over is of this kind. -/
def Extends (left : List Char → Prop) (scan wider : Scan α) : Prop :=
  ∀ cs a rest, scan.success cs = some (a, rest) → left rest →
    ∀ more, wider.success (cs ++ more) = some (a, rest ++ more)

def AnyLeft (_ : List Char) : Prop := True

def SomeLeft (rest : List Char) : Prop := rest ≠ []

/-- A reader that knows by itself where it ends. -/
abbrev Stable (scan : Scan α) : Prop := Extends AnyLeft scan scan

/-- A reader that may have to see what follows. -/
abbrev Delimited (scan : Scan α) : Prop := Extends SomeLeft scan scan

variable {left : List Char → Prop} {scan wider : Scan α}

theorem Extends.of_any (h : Extends AnyLeft scan wider) : Extends left scan wider :=
  fun cs a rest hok _ => h cs a rest hok trivial

theorem extends_of_fails (h : ∀ cs, scan.success cs = none) : Extends left scan wider := by
  intro cs a rest hok
  rw [h] at hok
  cases hok

/-- What is left over by the first reader is where the second one starts, so its kind follows from
what the second one has read. -/
theorem Extends.bind {behind : List Char → Prop} {next others : α → Scan β}
    (h : Extends behind scan wider) (hnext : ∀ a, Extends left (next a) (others a))
    (hbehind : ∀ a mid b rest, (next a).success mid = some (b, rest) → left rest → behind mid) :
    Extends left (scan >>= next) (wider >>= others) := by
  intro cs b rest hok hrest more
  rw [success_bind] at hok ⊢
  obtain ⟨⟨a, mid⟩, ha, hb⟩ := Option.bind_eq_some_iff.mp hok
  rw [h cs a mid ha (hbehind a mid b rest hb hrest) more, Option.bind_some]
  exact hnext a mid b rest hb hrest more

/-- A reader that knows where it ends may be followed by any other. -/
theorem Extends.bind_of_any {next others : α → Scan β} (h : Extends AnyLeft scan wider)
    (hnext : ∀ a, Extends left (next a) (others a)) :
    Extends left (scan >>= next) (wider >>= others) :=
  h.bind hnext fun _ _ _ _ _ _ => trivial

/-- What comes next has something to read. -/
theorem Extends.bind_of_some {next others : α → Scan β} (h : Extends SomeLeft scan wider)
    (hnext : ∀ a, Extends left (next a) (others a))
    (hnil : ∀ a b rest, (next a).success [] = some (b, rest) → ¬ left rest) :
    Extends left (scan >>= next) (wider >>= others) := by
  apply h.bind hnext
  intro a mid b rest hok hrest hmid
  rw [hmid] at hok
  exact hnil a b rest hok hrest

theorem Extends.map (h : Extends left scan wider) (f : α → β) :
    Extends left (f <$> scan) (f <$> wider) := by
  intro cs b rest hok hrest more
  rw [success_map] at hok ⊢
  obtain ⟨⟨a, behind⟩, ha, heq⟩ := Option.map_eq_some_iff.mp hok
  obtain ⟨rfl, rfl⟩ := Prod.mk.inj heq
  rw [h cs a behind ha hrest more, Option.map_some]

theorem stable_pure (a : α) : Stable (pure a) := by
  intro cs b rest hok _ more
  rw [success_pure] at hok ⊢
  obtain ⟨rfl, rfl⟩ := Prod.mk.inj (Option.some.inj hok)
  rfl

theorem stable_accept (checked : Except Unsuitable α) : Stable (accept checked) := by
  cases checked with
  | ok a => exact stable_pure a
  | error fault => exact extends_of_fails (success_reject fault)

theorem Extends.placed (h : Extends left scan wider) :
    Extends left (placed scan) (placed wider) := by
  intro cs a rest hok hrest more
  rw [success_placed] at hok ⊢
  exact h cs a rest hok hrest more

/-- Brackets that are closed by a token do not depend on what follows. -/
theorem Stable.closedBy {close : Scan Unit} (h : Stable scan) (hclose : Stable close) :
    Stable (closedBy scan close) := by
  intro cs a rest hok _ more
  rw [success_closedBy] at hok ⊢
  obtain ⟨⟨b, behind⟩, hb, hok⟩ := Option.bind_eq_some_iff.mp hok
  obtain ⟨⟨u, rest'⟩, hu, heq⟩ := Option.map_eq_some_iff.mp hok
  obtain ⟨rfl, rfl⟩ := Prod.mk.inj heq
  rw [h cs b behind hb trivial more, Option.bind_some, hclose behind u rest' hu trivial more,
    Option.map_some]

def after (c : Char) (scan : Scan α) : Scan α := fun cs => scan (c :: cs)

theorem Extends.after (h : Extends left scan wider) (c : Char) :
    Extends left (scan.after c) (wider.after c) :=
  fun cs => h (c :: cs)

/-- What was looked at is still there. -/
theorem stable_return (a : α) (c : Char) : Stable fun tail => .ok a (c :: tail) := by
  intro cs b rest hok _ more
  obtain ⟨rfl, rfl⟩ : a = b ∧ c :: cs = rest := by simpa [success] using hok
  rfl

theorem Extends.ite {p : Prop} [Decidable p] {other widerOther : Scan α}
    (h : p → Extends left scan wider) (hother : ¬ p → Extends left other widerOther) :
    Extends left (fun cs => if p then scan cs else other cs)
      (fun cs => if p then wider cs else widerOther cs) := by
  by_cases hp : p
  · simp only [hp, if_true]
    exact h hp
  · simp only [hp, if_false]
    exact hother hp

/-- The reader goes by the first character that is not blank. -/
def ByToken (scan : Scan α) (inside : Char → Scan α) : Prop :=
  ∀ cs, scan.success cs =
    match skipBlanks cs with
    | [] => none
    | c :: tail => (inside c).success tail

/-- It is enough to compare what two readers do behind the token that they go by. -/
theorem ByToken.extends {inside widerInside : Char → Scan α} (hscan : scan.ByToken inside)
    (hwider : wider.ByToken widerInside) (h : ∀ c, Extends left (inside c) (widerInside c)) :
    Extends left scan wider := by
  intro cs a rest hok hrest more
  rw [hscan] at hok
  rw [hwider]
  cases hskip : skipBlanks cs with
  | nil => simp [hskip] at hok
  | cons c tail =>
    have hlonger : skipBlanks (cs ++ more) = c :: (tail ++ more) := by
      rw [skipBlanks, List.dropWhile_append, ← skipBlanks, hskip]
      rfl
    rw [hskip] at hok
    rw [hlonger]
    exact h c tail a rest hok hrest more

end Scan

open Scan

/-! Single tokens -/

theorem stable_word (cs : List Char) : Stable (word cs) := by
  intro text u rest hok _ more
  induction cs generalizing text with
  | nil =>
    obtain ⟨rfl, rfl⟩ := Prod.mk.inj (Option.some.inj hok)
    rfl
  | cons c cs ih =>
    cases text with
    | nil => simp [success, word, failHere] at hok
    | cons d text =>
      by_cases hd : d = c
      · simp only [success, word, hd, if_true] at hok
        simpa only [success, List.cons_append, word, hd, if_true] using ih text hok
      · simp [success, word, hd, failAtNext] at hok

private theorem byToken_colon : colon.ByToken fun c tail =>
    if c = ':' then .ok () tail else failAtNext .expectedColon (c :: tail) := by
  intro cs
  unfold success colon
  cases skipBlanks cs <;> rfl

theorem stable_colon : Stable colon := by
  apply byToken_colon.extends byToken_colon
  intro c
  apply Extends.ite
  · intro _
    exact stable_pure ()
  · intro _
    exact extends_of_fails fun _ => rfl

theorem stable_endList : Stable endList := by
  have htoken : endList.ByToken fun c tail =>
      if c = ']' then .ok () tail else failAtNext .trailingCharacters (c :: tail) := by
    intro cs
    cases hskip : skipBlanks cs with
    | nil => simp [success, endList, hskip, failAtNext]
    | cons c tail =>
      by_cases hc : c = ']'
      · simp [success, endList, hskip, hc]
      · rw [success_endList_of_ne ⟨tail, hskip⟩ hc]
        simp [success, hc, failAtNext]
  apply htoken.extends htoken
  intro c
  apply Extends.ite
  · intro _
    exact stable_pure ()
  · intro _
    exact extends_of_fails fun _ => rfl

theorem stable_endObject : Stable endObject := by
  have htoken : endObject.ByToken fun c tail =>
      if c = '}' then .ok () tail else failAtNext .trailingCharacters (c :: tail) := by
    intro cs
    unfold success endObject
    cases skipBlanks cs with
    | nil => rfl
    | cons c tail =>
      by_cases hobject : c = '}'
      · simp [hobject]
      · by_cases hcomma : c = ',' <;> simp [hobject, hcomma, failAtNext]
  apply htoken.extends htoken
  intro c
  apply Extends.ite
  · intro _
    exact stable_pure ()
  · intro _
    exact extends_of_fails fun _ => rfl

/-! String literals -/

@[simp] theorem success_badDigits {α : Type} (missing : Nat) (cs : List Char) :
    (badDigits missing : Scan α).success cs = none := by
  unfold success badDigits
  by_cases h : Text.byteCount cs < missing <;> simp [h]

@[simp] theorem success_readWithin_nil (state : Within) (acc : List Char) :
    (readWithin state acc).success [] = none := by
  cases state with
  | digits missing value leading =>
    rw [← success_badDigits (α := String) missing []]
    simp only [success, readWithin]
  | _ => simp [success, readWithin, failHere]

@[simp] theorem success_skipWithin_nil (state : Within) : (skipWithin state).success [] = none := by
  cases state with
  | digits missing value leading =>
    rw [← success_badDigits (α := Unit) missing []]
    simp only [success, skipWithin]
  | _ => simp [success, skipWithin, failHere]

/-- A character takes the reader to the same state whatever follows. -/
theorem stable_readWithin (state : Within) (acc : List Char) : Stable (readWithin state acc) := by
  intro cs s rest hok _ more
  induction cs generalizing state acc with
  | nil => simp at hok
  | cons c cs ih =>
    simp only [success] at ih
    cases state with
    | plain =>
      simp only [success, readWithin, List.cons_append] at hok ⊢
      split_ifs at hok ⊢
      · simpa using hok
      · exact ih _ _ hok
      · simp [failHere] at hok
      · exact ih _ _ hok
    | escape =>
      simp only [success, readWithin, List.cons_append] at hok ⊢
      split_ifs at hok ⊢
      · exact ih _ _ hok
      · cases hshort : shortEscape c with
        | some d => exact ih _ _ (by simpa only [hshort] using hok)
        | none => simp [hshort, failAtNext] at hok
    | digits missing value leading =>
      simp only [success, readWithin, List.cons_append] at hok ⊢
      cases hdigit : Text.hexValue c with
      | none =>
        simp only [hdigit] at hok
        exact absurd (hok.symm.trans (success_badDigits missing (c :: cs))) (by simp)
      | some digit =>
        simp only [hdigit] at hok ⊢
        split_ifs at hok ⊢
        · exact ih _ _ hok
        · cases hunit : unit16 (value * 16 + digit) leading with
          | char d => exact ih _ _ (by simpa only [hunit] using hok)
          | leading half => exact ih _ _ (by simpa only [hunit] using hok)
          | lone => simp [hunit, failHere] at hok
    | afterLeading leading =>
      simp only [success, readWithin, List.cons_append] at hok ⊢
      split_ifs at hok ⊢
      · exact ih _ _ hok
      · simp [failAtNext] at hok
    | escapeAfterLeading leading =>
      simp only [success, readWithin, List.cons_append] at hok ⊢
      split_ifs at hok ⊢
      · exact ih _ _ hok
      · simp [failAtNext] at hok

/-- A string ends with its quote. -/
theorem stable_readString : Stable readString := stable_readWithin .plain []

/-- A string that is passed over ends with its quote too. -/
theorem stable_skipWithin (state : Within) : Stable (skipWithin state) := by
  intro cs u rest hok _ more
  induction cs generalizing state with
  | nil => simp at hok
  | cons c cs ih =>
    simp only [success] at ih
    cases state with
    | escape =>
      simp only [success, skipWithin, List.cons_append] at hok ⊢
      split_ifs at hok ⊢
      · exact ih _ hok
      · exact ih _ hok
      · simp [failAtNext] at hok
    | digits missing value leading =>
      simp only [success, skipWithin, List.cons_append] at hok ⊢
      split_ifs at hok ⊢
      · exact absurd (hok.symm.trans (success_badDigits missing (c :: cs))) (by simp)
      · exact ih _ hok
      · exact ih _ hok
    | _ =>
      simp only [success, skipWithin, List.cons_append] at hok ⊢
      split_ifs at hok ⊢
      · simpa using hok
      · exact ih _ hok
      · simp [failHere] at hok
      · exact ih _ hok

end SceneScript.Json
