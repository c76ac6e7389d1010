/-!
How a program on the command line ends.
-/
namespace SceneScript

structure Exit where
  stdout : String := ""
  stderr : String := ""
  code : Nat := 0
  deriving DecidableEq

end SceneScript
