import Mathlib.Tactic.NormNum
import SceneScript.Proofs.Document.Acceptance
import SceneScript.Proofs.Json.Grounded
import SceneScript.Proofs.Json.Render

/-!
The parser of documents against the grammar, on texts. A well-formed text that is not too deep and
whose numbers can be scaled is accepted when its value is a scene, and is that scene. Numbers
have no place in a scene, but stand in what is passed over, and are read there in the parts.
-/
namespace SceneScript

open Json

/-- Lines are exact, since every member of them counts and none is passed over. -/
theorem Line.exact_reader : Line.reader.Exact :=
  Reader.exact_string.entries _ _ _ _

/-- The parts are read from values, so nothing about the readers of payloads matters here. -/
theorem Part.faithful_reader : Part.reader.Faithful := Tagged.faithful_reader _

theorem Scene.faithful_fields : ∀ f ∈ Scene.shape.fields, f.fill.Faithful := by
  intro f hf
  simp only [Scene.shape, List.mem_cons, List.not_mem_nil, or_false] at hf
  rcases hf with rfl | rfl
  · exact Reader.faithful_string.map _
  · exact Part.faithful_reader.list.map _

/-- The scene that is read from a text is the one that is read from its value. -/
theorem Scene.faithful_reader : Scene.reader.Faithful :=
  Shape.faithful_reader _ Scene.faithful_fields

/-- A scene never comes out of a text that is not also the scene of some value. -/
theorem Scene.grounded_reader : Scene.reader.Grounded := by
  refine Shape.grounded_reader (by decide) fun f hf => ?_
  simp only [Scene.shape, List.mem_cons, List.not_mem_nil, or_false] at hf
  rcases hf with rfl | rfl
  · exact Reader.grounded_string.map _
  · exact (Tagged.grounded_reader Part.tagged).list.map _

namespace Scene

/-- A well-formed text is accepted as a scene exactly when the grammar says that its value is
this scene. -/
theorem parse_eq_ok_iff {text : String} {v : Json} (htext : Padded (IsText v) text.toList)
    (hdepth : v.depth ≤ 127) {scene : Scene} :
    Scene.parse text = .ok scene ↔ IsScene v scene :=
  (faithful_reader.parse_ok_iff htext hdepth).trans fromValue_scene_eq_ok_iff

/-- `-12.5e3`, which is scaled without loss. -/
def smallNumeral : NumberLiteral where
  isNegative := true
  whole := ['1', '2']
  fraction := ['5']
  exponent := some ⟨'e', none, ['3'], Or.inl rfl, Or.inl rfl, by decide, by simp⟩
  whole_ne_nil := by decide
  whole_isDigit := by simp
  no_leading_zero := by decide
  fraction_isDigit := by simp

theorem parse_with_other_member :
    Scene.parse "\x7b\"parts\":[],\"n\":-12.5e3,\"version\":\"2\"\x7d" = .ok ⟨"2", [], none⟩ := by
  have hnumber : smallNumeral.number = some (.binary true ⟨6871947673600000, -39⟩) := by
    decide +kernel
  have htext : Padded
      (IsText (.object [("parts", .array []), ("n", .number (.binary true ⟨6871947673600000, -39⟩)),
        ("version", .string "2")]))
      "\x7b\"parts\":[],\"n\":-12.5e3,\"version\":\"2\"\x7d".toList := by
    refine padded_self ⟨_, _, _, padded_self (spellsString_stringLiteral "parts"),
      padded_self ⟨[], allBlank_nil, rfl⟩, ⟨_, _, _, padded_self (spellsString_stringLiteral "n"),
      padded_self ⟨smallNumeral, hnumber, rfl⟩, ⟨_, _, _,
      padded_self (spellsString_stringLiteral "version"),
      padded_self (spellsString_stringLiteral "2"), rfl, rfl⟩, rfl⟩, ?_⟩
    decide +kernel
  have hscene : IsScene (.object [("parts", .array []), ("n", .number (.binary true
      ⟨6871947673600000, -39⟩)), ("version", .string "2")]) ⟨"2", [], none⟩ :=
    .object rfl rfl List.Forall₂.nil
  exact (parse_eq_ok_iff htext (by decide)).mpr hscene

def IsInRange (n : NumberLiteral) : Prop := n.magnitude ≤ (2 ^ 53 - 1) * 2 ^ 971

/-- Just below the largest binary number: its digits are rounded up first, and then scaled out of
the format. -/
def largeNumeral : NumberLiteral where
  isNegative := false
  whole := "17976931348623156225".toList
  fraction := []
  exponent := some ⟨'e', none, ['2', '8', '9'], Or.inl rfl, Or.inl rfl, by decide, by simp⟩
  whole_ne_nil := by decide
  whole_isDigit := by simp
  no_leading_zero := by decide
  fraction_isDigit := by simp

/-- The number that cannot be read is not larger than what the format can hold. -/
theorem isInRange_largeNumeral : IsInRange largeNumeral := by
  have hdigits : digitsValue (largeNumeral.whole ++ largeNumeral.fraction) =
      17976931348623156225 := by decide +kernel
  have hpower : (largeNumeral.exponent.map Exponent.value).getD 0 -
      largeNumeral.fraction.length = 289 := by decide +kernel
  have hbound : 17976931348623156225 * 10 ^ 289 ≤ (2 ^ 53 - 1) * 2 ^ 971 := by decide +kernel
  rw [IsInRange, NumberLiteral.magnitude, hdigits, hpower,
    show (289 : Int) = ((289 : Nat) : Int) from rfl, zpow_natCast]
  have hmantissa : (2 ^ 53 - 1 : ℚ) = ((2 ^ 53 - 1 : Nat) : ℚ) := by norm_num
  rw [hmantissa]
  exact_mod_cast hbound

/-- A scene with an image change that carries this number in a member of its own. -/
def largeText : String :=
  "\x7b\"version\":\"1\",\"parts\":[\x7b\"kind\":\"IMAGE_CHANGE\",\"imageChangeRequest\":" ++
    "\x7b\"n\":17976931348623156225e289\x7d\x7d]\x7d"

def largeValue : Json :=
  .object [("version", .string "1"), ("parts", .array [.object [("kind", .string "IMAGE_CHANGE"),
    ("imageChangeRequest", .object [("n", .number (.natural 0))])]])]

theorem spells_largeText :
    Padded (Spells (fun _ cs => ∃ n : NumberLiteral, IsInRange n ∧ cs = n.chars) largeValue)
      largeText.toList := by
  refine padded_self ⟨_, _, _, padded_self (spellsString_stringLiteral "version"),
    padded_self (spellsString_stringLiteral "1"), ⟨_, _, _,
    padded_self (spellsString_stringLiteral "parts"), padded_self ⟨_, _, padded_self ⟨_, _, _,
      padded_self (spellsString_stringLiteral "kind"),
      padded_self (spellsString_stringLiteral "IMAGE_CHANGE"), ⟨_, _, _,
      padded_self (spellsString_stringLiteral "imageChangeRequest"),
      padded_self ⟨_, _, _, padded_self (spellsString_stringLiteral "n"),
        padded_self ⟨largeNumeral, isInRange_largeNumeral, rfl⟩, rfl, rfl⟩, rfl, rfl⟩,
      rfl⟩, rfl, rfl⟩, rfl, rfl⟩, ?_⟩
  decide +kernel

theorem isScene_largeValue : IsScene largeValue ⟨"1", [.imageChange ⟨"", ""⟩], none⟩ := by
  have hchange : IsImageChange (.object [("n", .number (.natural 0))]) ⟨"", ""⟩ :=
    .object (Or.inr ⟨by simp [Lacks], rfl⟩) (Or.inr ⟨by simp [Lacks], rfl⟩)
  exact .object rfl rfl
    (List.Forall₂.cons (.object (.imageChange hchange) (List.Perm.refl _)) List.Forall₂.nil)

/-- That the numbers of a text are in range is not enough for the text to be accepted. -/
theorem not_parse_eq_ok_iff_of_isInRange :
    ¬ ∀ (text : String) (v : Json) (scene : Scene),
      Padded (Spells (fun _ cs => ∃ n : NumberLiteral, IsInRange n ∧ cs = n.chars) v) text.toList →
        v.depth ≤ 127 → (Scene.parse text = .ok scene ↔ IsScene v scene) := by
  intro h
  have hparse := (h _ _ _ spells_largeText (by decide)).mpr isScene_largeValue
  have hnone : (Scene.parse largeText).toOption = none := by decide +kernel
  rw [hparse] at hnone
  simp [Except.toOption] at hnone

/-- Whatever text is parsed as a scene, some value is this scene. -/
theorem exists_isScene_of_parse {source : String} {scene : Scene}
    (h : Scene.parse source = .ok scene) : ∃ v, IsScene v scene := by
  obtain ⟨v, hv⟩ := grounded_reader.exists_of_parse h
  exact ⟨v, fromValue_scene_eq_ok_iff.mp hv⟩

end Scene

end SceneScript
