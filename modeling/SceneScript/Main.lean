import SceneScript.Tool.Linter
import SceneScript.Tool.Previewer
import SceneScript.Tool.Theater

/-!
The command line. The first argument names the program, the others are its own.
-/
namespace SceneScript

open Tool

def fileFaultOf : IO.Error → FileFault
  | .noFileOrDirectory .. => .system .noSuchEntry
  | .alreadyExists .. => .system .entryExists
  | .inappropriateType _ 20 _ => .system .notADirectory
  | .inappropriateType _ 21 _ => .system .isADirectory
  | .permissionDenied _ _ details => .custom .permissionDenied details
  | error => .custom .other (toString error)

def readFile (path : String) : IO (Except FileFault String) := do
  if Disk.hasNul path then return .error .nulInPath
  match ← (IO.FS.readBinFile path).toBaseIO with
  | .ok bytes => return Disk.textOf bytes
  | .error error => return .error (fileFaultOf error)

def finishWith (exit : Exit) : IO UInt32 := do
  (← IO.getStdout).putStr exit.stdout
  (← IO.getStderr).putStr exit.stderr
  return UInt32.ofNat exit.code

/-- Builds the demonstration scene and writes it to the real file. -/
def theater : IO Exit := do
  let outcome := Scene.buildWith Writer.discard.listed {} Theater.scene {}
  for call in outcome.world.calls do
    match ← (IO.FS.writeFile call.path call.contents).toBaseIO with
    | .ok _ => pure ()
    | .error error => return Theater.report (.error (.write call.path (fileFaultOf error)))
  return Theater.report outcome.result

end SceneScript

open SceneScript Tool in
def main (args : List String) : IO UInt32 := do
  match args with
  | "scene_linter" :: rest =>
    let contents ← match rest with
      | path :: _ => readFile path
      | [] => pure (.error (.system .noSuchEntry))
    finishWith (Linter.run (fun _ => contents) rest)
  | "scene_preview" :: rest =>
    let contents ← match rest with
      | path :: _ => readFile path
      | [] => pure (.error (.system .noSuchEntry))
    finishWith (Previewer.run (fun _ => contents) rest)
  | "theater" :: _ => finishWith (← theater)
  | _ =>
    finishWith
      { stdout := Linter.usage ++ Previewer.usage ++ "Usage: theater\n", code := 1 }
