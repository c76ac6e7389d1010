import SceneScript.Build.Session
import SceneScript.Preview
import SceneScript.Tool.Exit

/-!
The preview as a program: it prints one scene document as a screenplay.
-/
namespace SceneScript.Tool.Previewer

def usage : String := "Usage: scene_preview <scene.json>\n"

/-- Shows the file at a path, of which the contents are given. -/
def display (path : String) (contents : Except FileFault String) : Exit :=
  match contents with
  | .error fault =>
    { stderr := "Error reading '" ++ path ++ "': " ++ fault.message ++ "\n", code := 1 }
  | .ok source =>
    match Scene.parse source with
    | .error error =>
      { stderr := "Error parsing '" ++ path ++ "': " ++ (SceneError.json error).message ++ "\n"
        code := 1 }
    | .ok scene => { stdout := Preview.render scene }

/-- Help was asked for only if nothing else is on the command line. -/
def run (read : String → Except FileFault String) : List String → Exit
  | [path] =>
    if path = "--help" ∨ path = "-h" then { stdout := usage } else display path (read path)
  | _ => { stdout := usage, code := 1 }

end SceneScript.Tool.Previewer
