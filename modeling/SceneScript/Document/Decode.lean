import SceneScript.Document.Encode
import SceneScript.Json.Reader

/-!
Documents as scenes. The readers accept the shapes that are written and the list forms of the
records; they keep out what the makers of lines and choices would refuse. A line is collected
member by member, so its faults are found in the order of the members.
-/
namespace SceneScript

open Json

/-- What makes an object no line. -/
inductive LineFault where
  | repeatedImage
  | severalSpeakers (first second : String)
  | noSpeaker
  | emptySpeaker
  | emptyText (speaker : String)
  | emptyImage (speaker : String)
  deriving DecidableEq

def LineFault.toUnsuitable : LineFault → Unsuitable
  | .repeatedImage => .repeatedField imageKey
  | .severalSpeakers first second =>
    .rejected ("dialogue line has more than one speaker: '" ++ first ++ "' and '" ++ second ++ "'")
  | .noSpeaker => .rejected "dialogue line has no speaker"
  | .emptySpeaker => .rejected "dialogue line has an empty speaker name"
  | .emptyText speaker => .rejected ("dialogue line from '" ++ speaker ++ "' has empty text")
  | .emptyImage speaker =>
    .rejected ("dialogue line from '" ++ speaker ++ "' has an empty image name")

structure LineDraft where
  spoken : Option (String × String) := none
  image : Option String := none

namespace LineDraft

def add (draft : LineDraft) (key value : String) : Except LineFault LineDraft :=
  if key = imageKey then
    match draft.image with
    | some _ => .error .repeatedImage
    | none => .ok { draft with image := some value }
  else
    match draft.spoken with
    | some (first, _) => .error (.severalSpeakers first key)
    | none => .ok { draft with spoken := some (key, value) }

def finish (draft : LineDraft) : Except LineFault Line :=
  match draft.spoken with
  | none => .error .noSpeaker
  | some (speaker, text) =>
    if speaker = "" then .error .emptySpeaker
    else if text = "" then .error (.emptyText speaker)
    else if draft.image = some "" then .error (.emptyImage speaker)
    else .ok ⟨speaker, text, draft.image⟩

end LineDraft

def Line.ofMembers (members : List (String × String)) : Except LineFault Line := do
  let draft ← members.foldlM (fun draft m => draft.add m.1 m.2) ({} : LineDraft)
  draft.finish

def Line.reader : Reader Line :=
  Reader.entries "a map with one speaker key and an optional \"image\" key" Reader.string
    ({} : LineDraft) (fun draft key value => (draft.add key value).mapError LineFault.toUnsuitable)
    (fun draft => draft.finish.mapError LineFault.toUnsuitable)

def blockReader : Reader (List Line) := Reader.list Line.reader

def choiceName : Reader String :=
  Reader.string.filterMap fun name =>
    if name = "" then .error (.rejected "option name must not be empty") else .ok name

def Choice.shape : Shape Choice where
  title := "struct BranchOption"
  fields := [field "name" choiceName fun name choice => { choice with name },
    field "dialogue" blockReader fun dialogue choice => { choice with dialogue }]
  blank := ⟨"", []⟩

def Choice.reader : Reader Choice := Choice.shape.reader

def choicesReader : Reader (List Choice) := Reader.list Choice.reader

def flagReader : Reader Bool :=
  Reader.string.filterMap fun s =>
    if s = "true" then .ok true
    else if s = "false" then .ok false
    else .error (.wrongValue (.string s) "\"true\" or \"false\"")

def settingsShape : Shape Bool where
  title := "struct BranchOptions"
  fields := [field "waitForAll" flagReader fun flag _ => flag]
  blank := false

def settingsReader : Reader Bool := settingsShape.reader

def ImageChange.shape : Shape ImageChange where
  title := "struct ImageChange"
  fields :=
    [optionalField "backgroundImage" Reader.string fun background change =>
        { change with background },
      optionalField "characterImage" Reader.string fun character change =>
        { change with character }]
  blank := {}

def ImageChange.reader : Reader ImageChange := ImageChange.shape.reader

namespace Part

def dialogueShape : Shape (List Line) where
  title := "struct variant ScenePart::Dialogue"
  fields := [field "dialogue" blockReader fun lines _ => lines]
  blank := []
  isClosed := true

def branchShape : Shape (List Choice × Bool) where
  title := "struct variant ScenePart::Branch"
  fields := [field "branch" choicesReader fun choices payload => (choices, payload.2),
    field "options" settingsReader fun flag payload => (payload.1, flag)]
  blank := ([], false)
  isClosed := true

def imageChangeShape : Shape ImageChange where
  title := "struct variant ScenePart::ImageChange"
  fields := [field "imageChangeRequest" ImageChange.reader fun change _ => change]
  blank := {}
  isClosed := true

/-- The payload of a kind; no other members are allowed beside it. -/
def payloadReader : Kind → Reader Part
  | .dialogue => dialogueShape.reader.map Part.dialogue
  | .branch => branchShape.reader.map fun payload => Part.branch payload.1 payload.2
  | .imageChange => imageChangeShape.reader.map Part.imageChange

def tagged : Tagged Part where
  title := "internally tagged enum ScenePart"
  tag := "kind"
  variants := [Kind.dialogue, Kind.branch, Kind.imageChange].map fun kind =>
    (kind.written, payloadReader kind)

def reader : Reader Part := tagged.reader

end Part

def Scene.shape : Shape Scene where
  title := "struct Scene"
  fields := [field "version" Reader.string fun version scene => { scene with version },
    field "parts" (Reader.list Part.reader) fun parts scene => { scene with parts }]
  blank := {}

def Scene.reader : Reader Scene := Scene.shape.reader

/-- Reads a document. The scene has no output path. -/
def Scene.parse (source : String) : Except Json.Error Scene := Scene.reader.parse source

end SceneScript
