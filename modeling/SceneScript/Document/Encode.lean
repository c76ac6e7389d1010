import SceneScript.Json.Render
import SceneScript.Scene.Speaker

/-!
Scenes as documents. All leaves are strings, the flag of a branch included; a line is an object
with its speaker as a key; the output path is not written.
-/
namespace SceneScript

def Line.toJson (line : Line) : Json :=
  .object ((line.speaker, .string line.text) ::
    match line.image with
    | some image => [(imageKey, .string image)]
    | none => [])

def blockToJson (lines : List Line) : Json := .array (lines.map Line.toJson)

def Choice.toJson (choice : Choice) : Json :=
  .object [("name", .string choice.name), ("dialogue", blockToJson choice.dialogue)]

def choicesToJson (choices : List Choice) : Json := .array (choices.map Choice.toJson)

def flagText (b : Bool) : String := if b then "true" else "false"

def settingsToJson (waitForAll : Bool) : Json :=
  .object [("waitForAll", .string (flagText waitForAll))]

/-- Both paths are written, also the one that stays unchanged. -/
def ImageChange.toJson (change : ImageChange) : Json :=
  .object [("backgroundImage", .string change.background),
    ("characterImage", .string change.character)]

/-- A name of joined words in capitals, with an underscore before each word but the first. -/
def screamingSnake : List Char → List Char
  | [] => []
  | c :: cs => c.toUpper :: cs.flatMap fun d => if d.isUpper then ['_', d] else [d.toUpper]

def Kind.name : Kind → String
  | .dialogue => "Dialogue"
  | .branch => "Branch"
  | .imageChange => "ImageChange"

/-- Documents tell a kind by its name, in capitals. -/
def Kind.written (kind : Kind) : String := String.ofList (screamingSnake kind.name.toList)

/-- What documents tell of a kind is what messages show of it. -/
theorem Kind.written_eq_tag (kind : Kind) : kind.written = kind.tag := by
  cases kind <;> rfl

/-- The kind comes first and decides which payload follows. -/
def Part.toJson (part : Part) : Json :=
  .object (("kind", .string part.kind.written) ::
    match part with
    | .dialogue lines => [("dialogue", blockToJson lines)]
    | .branch choices waitForAll =>
      [("branch", choicesToJson choices), ("options", settingsToJson waitForAll)]
    | .imageChange change => [("imageChangeRequest", change.toJson)])

def Scene.toJson (scene : Scene) : Json :=
  .object [("version", .string scene.version), ("parts", .array (scene.parts.map Part.toJson))]

def Scene.compact (scene : Scene) : String := scene.toJson.compactText

def Scene.pretty (scene : Scene) : String := scene.toJson.prettyText

end SceneScript
