import SceneScript.Build.Writer
import SceneScript.Tool.Exit

/-!
A short scene built by calls: narration, a monologue, and a branch with two choices. As a program
it writes the scene to a file and prints a description of it.
-/
namespace SceneScript.Tool.Theater

open Build

def player : Speaker := ⟨"Player"⟩

def john : Speaker := ⟨"John"⟩

def outputPath : String := "output.json"

def opening : Build Dialogue Unit := do
  Dialogue.narrate "I haven't felt this way in a long time."
  Dialogue.narrate "I feel the blood rushing to my head, watching this compile..."
  Dialogue.narrate "Success!"
  Dialogue.line (← require (john.speak ("Hey, " ++ player.name ++ ", what are you up to?")))
  Dialogue.narrate "I jolt up, startled."
  Dialogue.monologue do
    Monologue.say (← require (player.speak "Ahh! I didn't see you come in."))
    Monologue.say (← require (john.speakWithImage "The door was open." "gesture1"))
    Monologue.say (← require (player.speak "Oh."))
    Monologue.say (← require (player.speak "I, uh, was compiling a package..."))
  Dialogue.line (← require (john.speak "Ah. You want to come to the theater with me?"))

def answers : Build Choices Unit := do
  Choices.option "Sure." do
    Dialogue.line (← require (john.speak "Great. I'll see you in an hour."))
  Choices.option "Maybe next time." do
    Dialogue.line (← require (john.speak "Sure, I'll let you know of any future shows."))

def scene : Build Stage Unit := do
  Stage.version 1
  Stage.output outputPath
  Stage.parts do
    Parts.background "backgrounds/bedroom.png"
    Parts.dialogue opening
    Parts.sprite "characters/john_smile.png"
    Parts.branch answers
    Parts.dialogue (Dialogue.narrate "John leaves the room.")

def report (result : Except SceneError Scene) : Exit :=
  match result with
  | .ok scene =>
    { stdout := scene.inspect ++ "\nWrote " ++ toString scene.parts.length ++ " parts to " ++
        outputPath ++ "\n" }
  | .error error => { stderr := "Failed to build scene: " ++ error.message ++ "\n", code := 101 }

/-- The arguments are of no account. -/
def run (world : World) : Exit × World :=
  let outcome := Scene.build scene world
  (report outcome.result, outcome.world)

end SceneScript.Tool.Theater
