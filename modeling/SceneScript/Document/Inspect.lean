import SceneScript.Scene.Speaker
import SceneScript.Text.Quoted

/-!
Descriptions of scenes and their pieces for people who look for a mistake: every field by name,
strings in quotes.
-/
namespace SceneScript

def inspectRecord (name : String) (fields : List (String × String)) : String :=
  name ++ " \x7b " ++ String.intercalate ", " (fields.map fun f => f.1 ++ ": " ++ f.2) ++ " \x7d"

def inspectList (items : List String) : String := "[" ++ String.intercalate ", " items ++ "]"

def Speaker.inspect (speaker : Speaker) : String :=
  inspectRecord "Speaker" [("name", Text.quoted speaker.name)]

def Line.inspect (line : Line) : String :=
  inspectRecord "DialogueLine"
    [("speaker", Text.quoted line.speaker), ("text", Text.quoted line.text),
      ("image", match line.image with
        | some image => "Some(" ++ Text.quoted image ++ ")"
        | none => "None")]

def inspectBlock (lines : List Line) : String :=
  inspectRecord "DialogueBlock" [("lines", inspectList (lines.map Line.inspect))]

def Choice.inspect (choice : Choice) : String :=
  inspectRecord "BranchOption"
    [("name", Text.quoted choice.name), ("dialogue", inspectBlock choice.dialogue)]

def inspectChoices (choices : List Choice) : String :=
  inspectRecord "OptionSet" [("options", inspectList (choices.map Choice.inspect))]

def inspectSettings (waitForAll : Bool) : String :=
  inspectRecord "BranchOptions" [("wait_for_all", if waitForAll then "true" else "false")]

def ImageChange.inspect (change : ImageChange) : String :=
  inspectRecord "ImageChange"
    [("background_image", Text.quoted change.background),
      ("character_image", Text.quoted change.character)]

def Part.inspect : Part → String
  | .dialogue lines => inspectRecord "Dialogue" [("dialogue", inspectBlock lines)]
  | .branch choices waitForAll =>
    inspectRecord "Branch"
      [("branch", inspectChoices choices), ("options", inspectSettings waitForAll)]
  | .imageChange change =>
    inspectRecord "ImageChange" [("image_change_request", change.inspect)]

/-- The version and the output path stand as they are; what a scene lacks is left out. -/
def Scene.inspect (scene : Scene) : String :=
  let output := match scene.outputPath with
    | some path => ", outputPath = " ++ path
    | none => ""
  let parts :=
    if scene.parts.isEmpty then "" else ", parts = " ++ inspectList (scene.parts.map Part.inspect)
  "Scene(version = " ++ scene.version ++ output ++ parts ++ ")"

end SceneScript
