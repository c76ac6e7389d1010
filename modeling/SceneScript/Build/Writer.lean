import SceneScript.Build.Builders
import SceneScript.Document.Inspect

/-!
Building a whole scene and writing it out. A writer is handed the path, the text and the
configuration; what it does happens in a world that it may change, also when it fails.
-/
namespace SceneScript

open Build

structure WriteCall where
  path : String
  contents : String
  config : WriteConfig
  deriving DecidableEq

/-- The files, and the calls of those writers that keep a list. -/
structure World where
  disk : Disk := {}
  calls : List WriteCall := []

abbrev Writer := WriteCall → World → Except FileFault Unit × World

namespace Writer

def files : Writer := fun call world =>
  let (result, disk) :=
    world.disk.writeFile call.path call.contents.toUTF8 call.config.createParentDirs
  (result, { world with disk })

def discard : Writer := fun _ world => (.ok (), world)

def failing (fault : FileFault) : Writer := fun _ world => (.error fault, world)

/-- Lists the call before the writer acts on it. -/
def listed (writer : Writer) : Writer := fun call world =>
  writer call { world with calls := world.calls ++ [call] }

end Writer

structure Stage where
  scene : Scene := {}
  world : World := {}

namespace Stage

def updateScene (f : Scene → Scene) : Build Stage Unit :=
  update fun stage => { stage with scene := f stage.scene }

/-- The last call wins. -/
def version (number : UInt32) : Build Stage Unit := updateScene (·.withVersion number)

def output (path : String) : Build Stage Unit := updateScene (·.withOutput path)

/-- Replaces the parts there were. A failure keeps them. -/
def parts (body : Build Parts Unit) : Build Stage Unit := do
  let inner ← within {} body
  let before := (← built).scene.parts
  unless before.isEmpty do log (.replacing before.length)
  updateScene fun scene => { scene with parts := inner.parts }

def parse (source : String) : Build Stage Unit :=
  match Scene.parse source with
  | .ok scene => updateScene fun _ => scene
  | .error error => throw (.json error)

def snapshot : Build Stage Unit := do note (.snapshot (← built).scene)

def contentsFor (config : WriteConfig) (scene : Scene) : String :=
  if config.pretty then scene.pretty else scene.compact

def writeWith (writer : Writer) (config : WriteConfig) : Build Stage Unit := do
  let stage ← built
  match stage.scene.outputPath with
  | none => log .writeSkipped
  | some path =>
    let contents := contentsFor config stage.scene
    let (result, world) := writer ⟨path, contents, config⟩ stage.world
    update fun stage => { stage with world }
    match result with
    | .ok _ => log (.written path contents.utf8ByteSize)
    | .error fault => throw (.write path fault)

def write : Build Stage Unit := writeWith Writer.files {}

end Stage

structure Outcome where
  result : Except SceneError Scene
  world : World
  journal : List Event

namespace Scene

def buildWith (writer : Writer) (config : WriteConfig) (body : Build Stage Unit) (world : World) :
    Outcome :=
  match (do body; Stage.writeWith writer config : Build Stage Unit) ⟨{ world }, []⟩ with
  | .ok _ s => ⟨.ok s.built.scene, s.built.world, s.journal⟩
  | .error e s => ⟨.error e, s.built.world, s.journal⟩

/-- Builds a scene and writes it to its file, with the default configuration. -/
def build (body : Build Stage Unit) (world : World) : Outcome :=
  buildWith Writer.files {} body world

end Scene

end SceneScript
