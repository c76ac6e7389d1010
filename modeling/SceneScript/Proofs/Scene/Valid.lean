import SceneScript.Scene.Speaker

/-!
Well-formed scenes. These are the conditions that the makers of lines and choices check, and that
the readers of documents check again.
-/
namespace SceneScript

/-- A speaker can be the key of a line, and what is spoken or shown is not empty. -/
structure Line.Valid (line : Line) : Prop where
  speaker_ne_empty : line.speaker ≠ ""
  speaker_ne_imageKey : line.speaker ≠ imageKey
  text_ne_empty : line.text ≠ ""
  image_ne_empty : line.image ≠ some ""

structure Choice.Valid (choice : Choice) : Prop where
  name_ne_empty : choice.name ≠ ""
  dialogue : ∀ line ∈ choice.dialogue, line.Valid

def Part.Valid : Part → Prop
  | .dialogue lines => ∀ line ∈ lines, line.Valid
  | .branch choices _ => ∀ choice ∈ choices, choice.Valid
  | .imageChange _ => True

def Scene.Valid (scene : Scene) : Prop := ∀ part ∈ scene.parts, part.Valid

theorem Scene.valid_blank : ({} : Scene).Valid := by
  intro part hpart
  simp at hpart

/-- One of the two paths is given and the other is not. -/
def ImageChange.SetsOne (change : ImageChange) : Prop :=
  ¬ (change.background = "" ↔ change.character = "")

/-- An image change sets one picture; documents may hold others, which nothing builds. -/
def Part.SetsOnePicture : Part → Prop
  | .imageChange change => change.SetsOne
  | _ => True

/-- A line that a speaker speaks is well-formed. -/
theorem Speaker.valid_of_speakWithImage {speaker : Speaker} {name text image : String}
    {line : Line} (hspeaker : Speaker.ofName name = .ok speaker)
    (hline : speaker.speakWithImage text image = .ok line) : line.Valid := by
  obtain ⟨hname, hkey, rfl⟩ := ofName_eq_ok_iff.mp hspeaker
  obtain ⟨htext, rfl⟩ := speakWithImage_eq_ok_iff.mp hline
  refine ⟨hname, hkey, htext, ?_⟩
  by_cases himage : image = ""
  · simp [himage]
  · simp [himage]

end SceneScript
