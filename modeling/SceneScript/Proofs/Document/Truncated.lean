import SceneScript.Proofs.Build.Reachable
import SceneScript.Proofs.Json.Cut.Reader
import SceneScript.Proofs.Json.Longer.Reader

/-!
Documents that end too early or too late. A text that is longer than a scene is no scene, unless
white space is all that has been added; and when the end of what is written for a scene is missing,
the parser says just this, wherever the text stops.
-/
namespace SceneScript

open Json

namespace Scene

/-- A scene ends with its bracket, so nothing behind it can change what was read. -/
theorem stable_reader : Scene.reader.Stable := by
  refine Shape.stable_reader fun f hf => ?_
  simp only [Scene.shape, List.mem_cons, List.not_mem_nil, or_false] at hf
  rcases hf with rfl | rfl
  · exact Reader.stable_string.map _
  · exact (Tagged.stable_reader Part.tagged).list.map _

/-- A longer text is the same scene or none. -/
theorem parse_append_eq_ok_iff {source : String} {scene : Scene}
    (h : Scene.parse source = .ok scene) (more : String) (other : Scene) :
    Scene.parse (source ++ more) = .ok other ↔ other = scene ∧ AllBlank more.toList :=
  stable_reader.parse_append_eq_ok_iff h more other

end Scene

/-- All that a part holds is passed over in the search for its kind. -/
theorem Part.Valid.noticesEnd_toJson {part : Part} (h : part.Valid) :
    Part.reader.NoticesEnd part.toJson := by
  have hread : Part.reader.fromValue part.toJson = .ok part :=
    Part.fromValue_reader_eq_ok_iff.mpr h.isPart
  have htextual := part.isTextual_toJson
  exact Tagged.noticesEnd_reader Part.tagged hread (membersTextual_iff.mp htextual)

namespace Scene

/-- Wherever the document of a scene breaks off, the reader is still waiting for more. -/
theorem Valid.noticesEnd_toJson {scene : Scene} (h : scene.Valid) :
    Scene.reader.NoticesEnd scene.toJson := by
  have hread := fromValue_scene_eq_ok_iff.mpr h.isScene
  have hparts : (Reader.list Part.reader).NoticesEnd (.array (scene.parts.map Part.toJson)) := by
    apply Reader.NoticesEnd.list Part.faithful_reader
    · intro v hv
      obtain ⟨part, hpart, rfl⟩ := List.mem_map.mp hv
      exact ⟨part, Part.fromValue_reader_eq_ok_iff.mpr (h part hpart).isPart⟩
    · intro v hv
      obtain ⟨part, hpart, rfl⟩ := List.mem_map.mp hv
      exact (h part hpart).noticesEnd_toJson
  apply Shape.noticesEnd_reader faithful_fields (by decide) hread
  · intro m hm
    simp only [List.mem_cons, List.not_mem_nil, or_false] at hm
    rcases hm with rfl | rfl <;> simp [shape, Shape.names, field]
  · intro m hm f hf hname
    simp only [List.mem_cons, List.not_mem_nil, or_false] at hm
    simp only [Scene.shape, List.mem_cons, List.not_mem_nil, or_false] at hf
    rcases hm with rfl | rfl <;> rcases hf with rfl | rfl
    · exact (Reader.noticesEnd_string scene.version).map _
    · exact absurd (show "parts" = "version" from hname) (by decide)
    · exact absurd (show "version" = "parts" from hname) (by decide)
    · exact hparts.map _

/-- Neither text of a well-formed scene can be taken for whole before it is. -/
theorem Valid.parse_of_cut {scene : Scene} (h : scene.Valid) {text : List Char}
    (htext : IsText scene.toJson text) {source : String} (hsource : Cut text source.toList) :
    ∃ e, Scene.parse source = .error e ∧ e.category = .ending := by
  have hdepth := scene.depth_toJson
  have hlimit : scene.toJson.depth ≤ depthLimit := Nat.le_trans hdepth (by decide)
  exact h.noticesEnd_toJson.parse hlimit htext hsource

/-- What is parsed ends where its scene ends: white space may follow and nothing else, and of what
is written for a scene, nothing can be left out at the end. -/
theorem only_whole_texts_parse :
    (∀ (source : String) (scene : Scene), Scene.parse source = .ok scene →
      ∀ (more : String) (other : Scene),
        Scene.parse (source ++ more) = .ok other ↔ other = scene ∧ AllBlank more.toList) ∧
    (∀ scene : Scene, scene.Reachable → ∀ beginning rest : String, rest ≠ "" →
      beginning ++ rest = scene.compact ∨ beginning ++ rest = scene.pretty →
      ∃ e, Scene.parse beginning = .error e ∧ e.category = .ending) := by
  constructor
  · intro source scene h
    exact parse_append_eq_ok_iff h
  · intro scene h beginning rest hrest hwhole
    have hcut : Cut (beginning ++ rest).toList beginning.toList := by
      refine ⟨rest.toList, ?_, String.toList_append ..⟩
      rwa [ne_eq, String.toList_eq_nil_iff]
    rcases hwhole with hwhole | hwhole
    · rw [hwhole, compact, compactText, String.toList_ofList] at hcut
      exact h.valid.parse_of_cut (spells_compact _ _ scene.isTextual_toJson) hcut
    · rw [hwhole, pretty, prettyText, String.toList_ofList] at hcut
      exact h.valid.parse_of_cut (spells_pretty _ _ 0 scene.isTextual_toJson) hcut

/-- One line, whose speaker is named like the member that tells a part's kind. -/
def shortScene : Scene := ⟨"1", [.dialogue [⟨"kind", "é\n", none⟩]], none⟩

theorem reachable_shortScene : shortScene.Reachable := by
  have hrun : (((SceneAction.parts [⟨.dialogue
      [⟨.line ⟨some "kind", [.literal "é\n"], none⟩, false⟩], false⟩]).run []).outcome
      ⟨{}, []⟩).2.scene = shortScene := by decide +kernel
  rw [← hrun]
  exact Reachable.blank.step [] _

/-- The second text stops in the middle of an escape. -/
theorem only_whole_shortScene_parses :
    Scene.parse (shortScene.compact ++ "\r\n") = .ok shortScene ∧
      (∀ other, Scene.parse (shortScene.compact ++ "\x7d") ≠ .ok other) ∧
      ∃ e, Scene.parse ("\x7b\"version\":\"1\",\"parts\":[\x7b\"kind\":\"DIALOGUE\"," ++
        "\"dialogue\":[\x7b\"kind\":\"é\\") = .error e ∧ e.category = .ending := by
  have hparse : Scene.parse shortScene.compact = .ok shortScene :=
    reachable_shortScene.valid.parse_compact
  obtain ⟨hlonger, hcut⟩ := only_whole_texts_parse
  refine ⟨(hlonger _ _ hparse "\r\n" _).mpr ⟨rfl, by simp [AllBlank, isBlank]⟩, ?_, ?_⟩
  · intro other hother
    have hblank := ((hlonger _ _ hparse "\x7d" other).mp hother).2
    simp [AllBlank, isBlank] at hblank
  · have hwhole : "\x7b\"version\":\"1\",\"parts\":[\x7b\"kind\":\"DIALOGUE\"," ++
        "\"dialogue\":[\x7b\"kind\":\"é\\" ++ "n\"\x7d]\x7d]\x7d" = shortScene.compact := by
      decide +kernel
    exact hcut _ reachable_shortScene _ _ (by decide) (Or.inl hwhole)

end Scene

end SceneScript
