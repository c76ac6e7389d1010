/-!
Scenes as data. A scene is a version and an ordered list of parts; a part is a block of dialogue,
a branch of choices that each carry a block of their own, or a change of the pictures on screen.
-/
namespace SceneScript

/-- One spoken line. The image, when there is one, is shown while the line is on screen. -/
structure Line where
  speaker : String
  text : String
  image : Option String
  deriving DecidableEq

structure Choice where
  name : String
  dialogue : List Line
  deriving DecidableEq

/-- New pictures for the background and the sprite; the empty path leaves one unchanged. -/
structure ImageChange where
  background : String := ""
  character : String := ""
  deriving DecidableEq

/-- A branch that waits for all its choices is left only after the player has visited each. -/
inductive Part where
  | dialogue (lines : List Line)
  | branch (choices : List Choice) (waitForAll : Bool)
  | imageChange (change : ImageChange)
  deriving DecidableEq

inductive Kind where
  | dialogue
  | branch
  | imageChange
  deriving DecidableEq

/-- The output path belongs to the making of a scene and is no part of its document. -/
structure Scene where
  version : String := "1"
  parts : List Part := []
  outputPath : Option String := none
  deriving DecidableEq

def Kind.tag : Kind → String
  | .dialogue => "DIALOGUE"
  | .branch => "BRANCH"
  | .imageChange => "IMAGE_CHANGE"

def Part.kind : Part → Kind
  | .dialogue _ => .dialogue
  | .branch _ _ => .branch
  | .imageChange _ => .imageChange

namespace Scene

/-- The version is kept as its decimal form. -/
def withVersion (scene : Scene) (number : UInt32) : Scene :=
  { scene with version := toString number.toNat }

/-- The empty path means that the scene is not written anywhere. -/
def withOutput (scene : Scene) (path : String) : Scene :=
  { scene with outputPath := if path = "" then none else some path }

end Scene

end SceneScript
