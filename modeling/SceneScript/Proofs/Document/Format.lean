import SceneScript.Proofs.Build.Reachable

/-!
The form in which scenes are written. Where the grammar leaves readers room (members in any order,
list forms, members that are passed over), a written document has one form: these keys, in this
order, and strings at all leaves. No key occurs twice in an object, because no speaker of a
well-formed line is named like the key of the image.
-/
namespace SceneScript

open Json

/-- The speaker is the first key, and an image is the second one if there is an image. -/
inductive StrictLine : Json → Line → Prop
  | spoken {speaker text : String} (hspeaker : speaker ≠ "") (hkey : speaker ≠ "image") :
      StrictLine (.object [(speaker, .string text)]) ⟨speaker, text, none⟩
  | shown {speaker text image : String} (hspeaker : speaker ≠ "") (hkey : speaker ≠ "image") :
      StrictLine (.object [(speaker, .string text), ("image", .string image)])
        ⟨speaker, text, some image⟩

inductive StrictBlock : Json → List Line → Prop
  | lines {items : List Json} {lines : List Line} (hitems : List.Forall₂ StrictLine items lines) :
      StrictBlock (.array items) lines

inductive StrictChoice : Json → Choice → Prop
  | named {name : String} {block : Json} {lines : List Line} (hblock : StrictBlock block lines) :
      StrictChoice (.object [("name", .string name), ("dialogue", block)]) ⟨name, lines⟩

inductive StrictSettings : Json → Bool → Prop
  | waiting : StrictSettings (.object [("waitForAll", .string "true")]) true
  | free : StrictSettings (.object [("waitForAll", .string "false")]) false

inductive StrictImageChange : Json → ImageChange → Prop
  | paths {background character : String} :
      StrictImageChange
        (.object [("backgroundImage", .string background), ("characterImage", .string character)])
        ⟨background, character⟩

inductive StrictPayload : String → List (String × Json) → Part → Prop
  | dialogue {block : Json} {lines : List Line} (hblock : StrictBlock block lines) :
      StrictPayload "DIALOGUE" [("dialogue", block)] (.dialogue lines)
  | branch {items : List Json} {settings : Json} {choices : List Choice} {flag : Bool}
      (hitems : List.Forall₂ StrictChoice items choices)
      (hsettings : StrictSettings settings flag) :
      StrictPayload "BRANCH" [("branch", .array items), ("options", settings)]
        (.branch choices flag)
  | imageChange {request : Json} {change : ImageChange}
      (hrequest : StrictImageChange request change) :
      StrictPayload "IMAGE_CHANGE" [("imageChangeRequest", request)] (.imageChange change)

/-- The kind comes first, and is the tag that messages show. -/
inductive StrictPart : Json → Part → Prop
  | tagged {kind : String} {payload : List (String × Json)} {part : Part}
      (hpayload : StrictPayload kind payload part) (htag : kind = part.kind.tag) :
      StrictPart (.object (("kind", .string kind) :: payload)) part

/-- The output path has no member. -/
inductive StrictScene : Json → Scene → Prop
  | document {version : String} {items : List Json} {parts : List Part}
      {outputPath : Option String} (hitems : List.Forall₂ StrictPart items parts) :
      StrictScene (.object [("version", .string version), ("parts", .array items)])
        ⟨version, parts, outputPath⟩

/-! Keys in the strict form -/

theorem keysDistinct_array_of_forall₂ {α : Type} {is : Json → α → Prop} {items : List Json}
    {as : List α} (hitems : List.Forall₂ is items as) (h : ∀ v a, is v a → v.KeysDistinct) :
    (Json.array items).KeysDistinct := by
  rw [KeysDistinct, itemsDistinct_iff]
  intro v hv
  obtain ⟨i, hi, rfl⟩ := List.mem_iff_getElem.mp hv
  have hlength := hitems.length_eq
  exact h _ _ (hitems.get hi (hlength ▸ hi))

/-- The speaker's key is never that of the image. -/
theorem StrictLine.keysDistinct {v : Json} {line : Line} (h : StrictLine v line) :
    v.KeysDistinct := by
  cases h with
  | spoken hspeaker hkey => simp [KeysDistinct, MembersDistinct]
  | shown hspeaker hkey => simp [KeysDistinct, MembersDistinct, hkey]

theorem StrictBlock.keysDistinct {v : Json} {lines : List Line} (h : StrictBlock v lines) :
    v.KeysDistinct := by
  obtain ⟨hitems⟩ := h
  exact keysDistinct_array_of_forall₂ hitems fun _ _ => StrictLine.keysDistinct

theorem StrictChoice.keysDistinct {v : Json} {choice : Choice} (h : StrictChoice v choice) :
    v.KeysDistinct := by
  obtain ⟨hblock⟩ := h
  simp [KeysDistinct, MembersDistinct, hblock.keysDistinct]

theorem StrictPart.keysDistinct {v : Json} {part : Part} (h : StrictPart v part) :
    v.KeysDistinct := by
  obtain ⟨hpayload, _⟩ := h
  cases hpayload with
  | dialogue hblock => simp [KeysDistinct, MembersDistinct, hblock.keysDistinct]
  | branch hitems hsettings =>
    have hchoices := keysDistinct_array_of_forall₂ hitems fun _ _ => StrictChoice.keysDistinct
    cases hsettings <;> simp [KeysDistinct, MembersDistinct] at hchoices ⊢ <;> exact hchoices
  | imageChange hrequest =>
    obtain ⟨⟩ := hrequest
    simp [KeysDistinct, MembersDistinct]

/-- The format never repeats a key, at any depth. -/
theorem StrictScene.keysDistinct {v : Json} {scene : Scene} (h : StrictScene v scene) :
    v.KeysDistinct := by
  obtain ⟨hitems⟩ := h
  have hparts := keysDistinct_array_of_forall₂ hitems fun _ _ => StrictPart.keysDistinct
  exact ⟨by simp, trivial, hparts, trivial⟩

/-! What is written is in the strict form -/

/-- A well-formed line is written as the format asks. -/
theorem Line.Valid.strict {line : Line} (h : line.Valid) : StrictLine line.toJson line := by
  obtain ⟨speaker, text, image⟩ := line
  cases image with
  | none => exact .spoken h.speaker_ne_empty h.speaker_ne_imageKey
  | some image => exact .shown h.speaker_ne_empty h.speaker_ne_imageKey

theorem strictBlock_blockToJson {lines : List Line} (h : ∀ line ∈ lines, line.Valid) :
    StrictBlock (blockToJson lines) lines :=
  .lines (forall₂_toJson fun line hline => (h line hline).strict)

theorem Choice.Valid.strict {choice : Choice} (h : choice.Valid) :
    StrictChoice choice.toJson choice :=
  .named (strictBlock_blockToJson h.dialogue)

theorem strictSettings_settingsToJson (flag : Bool) :
    StrictSettings (settingsToJson flag) flag := by
  cases flag
  · exact .free
  · exact .waiting

/-- Every part is written under its own kind, with the payload of that kind. -/
theorem Part.Valid.strict {part : Part} (h : part.Valid) : StrictPart part.toJson part := by
  unfold Part.toJson
  rw [Kind.written_eq_tag]
  cases part with
  | dialogue lines => exact .tagged (.dialogue (strictBlock_blockToJson h)) rfl
  | branch choices waitForAll =>
    have hitems : List.Forall₂ StrictChoice (choices.map Choice.toJson) choices :=
      forall₂_toJson fun choice hchoice => (h choice hchoice).strict
    exact .tagged (.branch hitems (strictSettings_settingsToJson waitForAll)) rfl
  | imageChange change => exact .tagged (.imageChange .paths) rfl

namespace Scene

theorem Valid.strict {scene : Scene} (h : scene.Valid) : StrictScene scene.toJson scene :=
  .document (forall₂_toJson fun part hpart => (h part hpart).strict)

/-- Each of the two texts has this value and no other. -/
theorem isText_iff_of_written {scene : Scene} {text : String}
    (h : text = scene.compact ∨ text = scene.pretty) (v : Json) :
    Padded (IsText v) text.toList ↔ v = scene.toJson := by
  have hwritten : Padded (IsText scene.toJson) text.toList := by
    rcases h with rfl | rfl
    · exact padded_compactText scene.isTextual_toJson
    · exact padded_prettyText scene.isTextual_toJson
  constructor
  · intro hv
    exact eq_of_isText hv hwritten
  · intro hv
    rw [hv]
    exact hwritten

/-- The documents of a reachable scene are in the strict form: both are texts of one value, which
has strings at all its leaves, no key twice in an object, and the keys of the form in its order.
The output path makes no difference to them. -/
theorem Reachable.documents_strict {scene : Scene} (h : scene.Reachable) :
    ∃ v : Json, StrictScene v scene ∧ v.IsTextual ∧ v.KeysDistinct ∧
      ∀ (outputPath : Option String) (text : String),
        text = { scene with outputPath }.compact ∨ text = { scene with outputPath }.pretty →
          ∀ w : Json, Padded (IsText w) text.toList ↔ w = v := by
  have hstrict := h.valid.strict
  refine ⟨scene.toJson, hstrict, scene.isTextual_toJson, hstrict.keysDistinct, ?_⟩
  intro outputPath text htext w
  exact isText_iff_of_written htext w

/-- The speaker is named like the key of a part's kind, and there is an image and an output path. -/
theorem Reachable.oddScene_strict :
    ∃ v : Json, StrictScene v oddScene ∧ v.IsTextual ∧ v.KeysDistinct ∧
      ∀ w : Json, Padded (IsText w) oddScene.compact.toList ↔ w = v := by
  have hrun : ((SceneAction.runAll oddSteps).outcome ⟨{}, []⟩).2.scene = oddScene := by
    decide +kernel
  have hreachable : oddScene.Reachable := by
    rw [← hrun]
    exact (maintains_runAll oddSteps ⟨{}, []⟩ .blank).1
  obtain ⟨v, hstrict, htextual, hkeys, hvalue⟩ := hreachable.documents_strict
  exact ⟨v, hstrict, htextual, hkeys, hvalue oddScene.outputPath oddScene.compact (Or.inl rfl)⟩

end Scene

end SceneScript
