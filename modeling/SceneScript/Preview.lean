import SceneScript.Scene.Basic
import SceneScript.Text.Uppercase

/-!
Scenes as screenplays: a heading, and for every part an empty line followed by what it shows.
Speakers are upper-cased, and the dialogue that follows a choice is indented.
-/
namespace SceneScript.Preview

def lineText (indent : String) (line : Line) : String :=
  indent ++ Text.uppercase line.speaker ++ ": " ++ line.text ++
    (match line.image with
      | some image => " [" ++ image ++ "]"
      | none => "") ++ "\n"

def blockText (indent : String) (lines : List Line) : String :=
  String.join (lines.map (lineText indent))

/-- Choices are numbered from one. -/
def choicesText (number : Nat) : List Choice → String
  | [] => ""
  | choice :: choices =>
    "  " ++ toString number ++ ". " ++ choice.name ++ "\n" ++
      blockText "     " choice.dialogue ++ choicesText (number + 1) choices

def ruleText (waitForAll : Bool) : String := if waitForAll then "visit every option" else "pick one"

/-- A picture that stays unchanged is not mentioned. -/
def imageText (label path : String) : String :=
  if path = "" then "" else "[" ++ label ++ ": " ++ path ++ "]\n"

def partText : Part → String
  | .dialogue lines => blockText "" lines
  | .branch choices waitForAll =>
    "CHOICE (" ++ ruleText waitForAll ++ "):\n" ++ choicesText 1 choices
  | .imageChange change =>
    imageText "background" change.background ++ imageText "sprite" change.character

def render (scene : Scene) : String :=
  "=== Scene (schema v" ++ scene.version ++ ") ===\n" ++
    String.join (scene.parts.map fun part => "\n" ++ partText part)

end SceneScript.Preview
