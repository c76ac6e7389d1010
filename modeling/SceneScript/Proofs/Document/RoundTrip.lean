import SceneScript.Proofs.Document.Parse

/-!
Scenes and the documents that are written for them. A document has nothing but strings at its
leaves, so both of its texts are read as its value; and the value of a well-formed scene is that
scene again, without its output path.
-/
namespace SceneScript

open Json

/-! The shape of documents -/

theorem Json.itemsDepth_le_iff {vs : List Json} {depth : Nat} :
    itemsDepth vs ≤ depth ↔ ∀ v ∈ vs, v.depth ≤ depth := by
  induction vs with
  | nil => simp [itemsDepth]
  | cons v vs ih => simp [itemsDepth, ih]

/-- Lists of documents of one kind. -/
theorem Json.isTextual_array_map {α : Type} {f : α → Json} {as : List α}
    (h : ∀ a, (f a).IsTextual) : (Json.array (as.map f)).IsTextual := by
  rw [IsTextual, itemsTextual_iff]
  intro v hv
  obtain ⟨a, _, rfl⟩ := List.mem_map.mp hv
  exact h a

/-- A list is one deeper than its items. -/
theorem Json.depth_array_map_le {α : Type} {f : α → Json} {as : List α} {depth : Nat}
    (h : ∀ a, (f a).depth ≤ depth) : (Json.array (as.map f)).depth ≤ depth + 1 := by
  rw [Json.depth]
  have hitems : itemsDepth (as.map f) ≤ depth := by
    rw [itemsDepth_le_iff]
    intro v hv
    obtain ⟨a, _, rfl⟩ := List.mem_map.mp hv
    exact h a
  omega

theorem Line.isTextual_toJson (line : Line) : line.toJson.IsTextual := by
  unfold Line.toJson
  cases line.image <;> simp [IsTextual, MembersTextual]

theorem Line.depth_toJson (line : Line) : line.toJson.depth ≤ 1 := by
  unfold Line.toJson
  cases line.image <;> simp [Json.depth, membersDepth]

theorem isTextual_blockToJson (lines : List Line) : (blockToJson lines).IsTextual :=
  isTextual_array_map Line.isTextual_toJson

theorem depth_blockToJson (lines : List Line) : (blockToJson lines).depth ≤ 2 :=
  depth_array_map_le Line.depth_toJson

theorem Choice.isTextual_toJson (choice : Choice) : choice.toJson.IsTextual := by
  simp [Choice.toJson, IsTextual, MembersTextual, isTextual_blockToJson]

theorem Choice.depth_toJson (choice : Choice) : choice.toJson.depth ≤ 3 := by
  have hblock := depth_blockToJson choice.dialogue
  simp only [Choice.toJson, Json.depth, membersDepth]
  omega

theorem isTextual_choicesToJson (choices : List Choice) : (choicesToJson choices).IsTextual :=
  isTextual_array_map Choice.isTextual_toJson

theorem depth_choicesToJson (choices : List Choice) : (choicesToJson choices).depth ≤ 4 :=
  depth_array_map_le Choice.depth_toJson

theorem Part.isTextual_toJson (part : Part) : part.toJson.IsTextual := by
  cases part <;>
    simp [Part.toJson, IsTextual, MembersTextual, isTextual_blockToJson, isTextual_choicesToJson,
      settingsToJson, ImageChange.toJson]

theorem Part.depth_toJson (part : Part) : part.toJson.depth ≤ 5 := by
  cases part with
  | dialogue lines =>
    have hblock := depth_blockToJson lines
    simp only [Part.toJson, Json.depth, membersDepth]
    omega
  | branch choices waitForAll =>
    have hchoices := depth_choicesToJson choices
    simp only [Part.toJson, settingsToJson, Json.depth, membersDepth]
    omega
  | imageChange change =>
    simp only [Part.toJson, ImageChange.toJson, Json.depth, membersDepth]
    omega

namespace Scene

/-- Documents hold no numbers, truth values or `null`: even flags are strings. -/
theorem isTextual_toJson (scene : Scene) : scene.toJson.IsTextual := by
  simp [Scene.toJson, IsTextual, MembersTextual]
  exact isTextual_array_map Part.isTextual_toJson

/-- The deepest bracket of a document is that of a line inside a choice. -/
theorem depth_toJson (scene : Scene) : scene.toJson.depth ≤ 7 := by
  have hparts : (Json.array (scene.parts.map Part.toJson)).depth ≤ 6 :=
    depth_array_map_le Part.depth_toJson
  simp only [Scene.toJson, Json.depth, membersDepth] at hparts ⊢
  omega

end Scene

/-! What documents say -/

theorem forall₂_toJson {α : Type} {f : α → Json} {is : Json → α → Prop} {as : List α}
    (h : ∀ a ∈ as, is (f a) a) : List.Forall₂ is (as.map f) as := by
  rw [List.forall₂_map_left_iff]
  exact List.forall₂_same.mpr h

/-- What is written for a line is a line to the grammar, provided that the line is well-formed. -/
theorem Line.Valid.isLine {line : Line} (h : line.Valid) : IsLine line.toJson line := by
  refine isLine_iff.mpr ⟨h, _, rfl, ?_⟩
  obtain ⟨speaker, text, image⟩ := line
  cases image <;> exact List.Perm.refl _

theorem isBlock_blockToJson {lines : List Line} (h : ∀ line ∈ lines, line.Valid) :
    IsBlock (blockToJson lines) lines :=
  ⟨_, rfl, forall₂_toJson fun line hline => (h line hline).isLine⟩

theorem Choice.Valid.isChoice {choice : Choice} (h : choice.Valid) :
    IsChoice choice.toJson choice :=
  .object rfl h.name_ne_empty rfl (isBlock_blockToJson h.dialogue)

theorem isSettings_settingsToJson (flag : Bool) : IsSettings (settingsToJson flag) flag := by
  refine .object rfl ?_
  cases flag
  · exact .no
  · exact .yes

theorem ImageChange.isImageChange (change : ImageChange) : IsImageChange change.toJson change :=
  .object (Or.inl rfl) (Or.inl rfl)

/-- What is written for a part is that part, and no other, to the grammar. -/
theorem Part.Valid.isPart {part : Part} (h : part.Valid) : IsPart part.toJson part := by
  unfold Part.toJson
  rw [Kind.written_eq_tag]
  cases part with
  | dialogue lines => exact .object (.dialogue (isBlock_blockToJson h)) (List.Perm.refl _)
  | branch choices waitForAll =>
    have hchoices : IsChoices (choicesToJson choices) choices :=
      ⟨_, rfl, forall₂_toJson fun choice hchoice => (h choice hchoice).isChoice⟩
    exact .object (.branch hchoices (isSettings_settingsToJson waitForAll)) (List.Perm.refl _)
  | imageChange change => exact .object (.imageChange change.isImageChange) (List.Perm.refl _)

/-! What the grammar accepts -/

/-- The grammar knows no lines but well-formed ones. -/
theorem IsLine.valid {v : Json} {line : Line} (h : IsLine v line) : line.Valid :=
  (isLine_iff.mp h).1

/-- What holds of each item holds of all items of a list. -/
theorem forall_of_forall₂ {α : Type} {is : Json → α → Prop} {P : α → Prop}
    {vs : List Json} {as : List α} (hs : List.Forall₂ is vs as) (h : ∀ v a, is v a → P a) :
    ∀ a ∈ as, P a := by
  induction hs with
  | nil => simp
  | cons ha _ ih => exact List.forall_mem_cons.mpr ⟨h _ _ ha, ih⟩

theorem IsBlock.valid {v : Json} {lines : List Line} (h : IsBlock v lines) :
    ∀ line ∈ lines, line.Valid := by
  obtain ⟨_, _, hitems⟩ := h
  exact forall_of_forall₂ hitems fun _ _ => IsLine.valid

theorem IsChoice.valid {v : Json} {choice : Choice} (h : IsChoice v choice) : choice.Valid := by
  cases h with
  | object _ hne _ hblock => exact ⟨hne, hblock.valid⟩
  | list hne hblock => exact ⟨hne, hblock.valid⟩

theorem IsPayload.valid {payload : List (String × Json)} {part : Part}
    (h : IsPayload payload part) : part.Valid := by
  cases h with
  | dialogue hblock => exact hblock.valid
  | branch hchoices _ =>
    obtain ⟨_, _, hitems⟩ := hchoices
    exact forall_of_forall₂ hitems fun _ _ => IsChoice.valid
  | imageChange _ => exact trivial

theorem IsPart.valid {v : Json} {part : Part} (h : IsPart v part) : part.Valid := by
  cases h with
  | object hpayload _ => exact hpayload.valid
  | list hpayload => exact hpayload.valid

/-- A scene of the grammar can hold image changes that no builder makes, but is well-formed
otherwise. -/
theorem IsScene.valid {v : Json} {scene : Scene} (h : IsScene v scene) : scene.Valid := by
  cases h with
  | object _ _ hitems => exact forall_of_forall₂ hitems fun _ _ => IsPart.valid
  | list hitems => exact forall_of_forall₂ hitems fun _ _ => IsPart.valid

namespace Scene

/-- Whatever text is parsed as a scene, the scene is well-formed. -/
theorem valid_of_parse {source : String} {scene : Scene} (h : Scene.parse source = .ok scene) :
    scene.Valid := by
  obtain ⟨v, hv⟩ := exists_isScene_of_parse h
  exact hv.valid

/-- No document sets an output path. -/
theorem outputPath_of_parse {source : String} {scene : Scene}
    (h : Scene.parse source = .ok scene) : scene.outputPath = none := by
  obtain ⟨v, hv⟩ := exists_isScene_of_parse h
  cases hv <;> rfl

/-- A scene is known from its document, but for its output path. -/
theorem Valid.isScene {scene : Scene} (h : scene.Valid) :
    IsScene scene.toJson { scene with outputPath := none } :=
  .object rfl rfl (forall₂_toJson fun part hpart => (h part hpart).isPart)

/-- Both texts of a well-formed scene are parsed as the scene, but for its output path. -/
theorem Valid.parse_compact {scene : Scene} (h : scene.Valid) :
    Scene.parse scene.compact = .ok { scene with outputPath := none } := by
  have hdepth := scene.depth_toJson
  exact (parse_eq_ok_iff (padded_compactText scene.isTextual_toJson) (by omega)).mpr h.isScene

theorem Valid.parse_pretty {scene : Scene} (h : scene.Valid) :
    Scene.parse scene.pretty = .ok { scene with outputPath := none } := by
  have hdepth := scene.depth_toJson
  exact (parse_eq_ok_iff (padded_prettyText scene.isTextual_toJson) (by omega)).mpr h.isScene

end Scene

end SceneScript
