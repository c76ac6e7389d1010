import SceneScript.Build.Session
import SceneScript.Lint
import SceneScript.Tool.Exit

/-!
The linter as a program: it reads one scene document and reports the findings. With `--strict`
among the further arguments a finding makes it fail.
-/
namespace SceneScript.Tool.Linter

def usage : String := "Usage: scene_linter <scene.json> [--strict]\n"

def report (scene : Scene) : String :=
  let warnings := Lint.warnings scene
  "Loaded scene version " ++ scene.version ++ " with " ++ toString scene.parts.length ++
    " parts\n\n=== Scene Lint Report ===\n\n" ++
    (if warnings.isEmpty then "All checks passed!\n" else "") ++
    String.join (warnings.map fun warning => "WARNING: " ++ warning ++ "\n") ++
    "\nSummary: " ++ toString warnings.length ++ " warnings\n"

/-- Checks the file at a path, of which the contents are given. -/
def check (path : String) (contents : Except FileFault String) (isStrict : Bool) : Exit :=
  match contents with
  | .error fault =>
    { stderr := "ERROR: Failed to read '" ++ path ++ "': " ++ fault.message ++ "\n", code := 1 }
  | .ok source =>
    match Scene.parse source with
    | .error error =>
      { stderr := "ERROR: '" ++ path ++ "' is not a valid scene document: " ++
          (SceneError.json error).message ++ "\n"
        code := 1 }
    | .ok scene =>
      { stdout := report scene
        code := if isStrict && !(Lint.findings scene).isEmpty then 1 else 0 }

def run (read : String → Except FileFault String) : List String → Exit
  | [] => { stdout := usage }
  | path :: options =>
    if path = "--help" ∨ path = "-h" then { stdout := usage }
    else check path (read path) (options.contains "--strict")

end SceneScript.Tool.Linter
