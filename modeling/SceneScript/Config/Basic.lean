import SceneScript.Json.Render

/-!
How scenes are written out: laid out on lines or compactly, and with or without making the
directories above the file.
-/
namespace SceneScript

structure WriteConfig where
  pretty : Bool := true
  createParentDirs : Bool := false
  deriving DecidableEq

namespace WriteConfig

def prettyName : String := "pretty"

def createParentDirsName : String := "create_parent_dirs"

def wordOf (b : Bool) : String := if b then "true" else "false"

def toRon (config : WriteConfig) : String :=
  "(" ++ prettyName ++ ":" ++ wordOf config.pretty ++ "," ++ createParentDirsName ++ ":" ++
    wordOf config.createParentDirs ++ ")"

def toJson (config : WriteConfig) : Json :=
  .object [(prettyName, .bool config.pretty), (createParentDirsName, .bool config.createParentDirs)]

end WriteConfig

end SceneScript
