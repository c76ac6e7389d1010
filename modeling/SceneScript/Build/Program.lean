import SceneScript.Build.Writer

/-!
Programs of builder calls as data. A step may be marked so that its failure is caught: the error is
discarded and the scope goes on with its next step, while an uncaught error ends the scope. Running
a program notes every finished step in the journal, inner steps before the step of their scope.
-/
namespace SceneScript

open Build

/-- Text put together from fixed pieces and names of speakers, who must be possible speakers. -/
inductive TextPiece where
  | literal (s : String)
  | speaker (name : String)
  deriving DecidableEq

def TextPiece.text : TextPiece → Except InvalidInput String
  | .literal s => .ok s
  | .speaker name => (Speaker.ofName name).map Speaker.name

def textOf (pieces : List TextPiece) : Except InvalidInput String :=
  String.join <$> pieces.mapM TextPiece.text

/-- A line as a program asks for it. Without a name the narrator speaks. -/
structure LineCall where
  speaker : Option String := none
  text : List TextPiece := []
  image : Option String := none
  deriving DecidableEq

/-- First the speaker is made, then the text, then the line. -/
def LineCall.line (call : LineCall) : Except InvalidInput Line := do
  let speaker ← match call.speaker with
    | none => pure Speaker.narrator
    | some name => Speaker.ofName name
  let text ← textOf call.text
  match call.image with
  | none => speaker.speak text
  | some image => speaker.speakWithImage text image

/-- The steps of a monologue. A chain says several lines in one step; those before the first that
cannot be made stay said. -/
inductive MonologueProgram where
  | done
  | say (line : LineCall) (isCaught : Bool) (next : MonologueProgram)
  | chain (lines : List LineCall) (isCaught : Bool) (next : MonologueProgram)
  | monologue (body : MonologueProgram) (isCaught : Bool) (next : MonologueProgram)
  | fail (message : String) (isCaught : Bool) (next : MonologueProgram)
  deriving Inhabited

structure Step (α : Type) where
  action : α
  isCaught : Bool := false

inductive DialogueAction where
  | line (line : LineCall)
  | narrate (text : List TextPiece)
  | monologue (body : MonologueProgram)
  | fail (message : String)

abbrev DialogueProgram := List (Step DialogueAction)

inductive ChoicesAction where
  | option (name : String) (body : DialogueProgram)
  | fail (message : String)

abbrev ChoicesProgram := List (Step ChoicesAction)

inductive PartsAction where
  | dialogue (body : DialogueProgram)
  | branch (body : ChoicesProgram)
  | branchWith (waitForAll : Bool) (body : ChoicesProgram)
  | background (path : String)
  | sprite (path : String)
  | fail (message : String)

abbrev PartsProgram := List (Step PartsAction)

/-- A configuration that is at hand or still to be read. -/
inductive ConfigSource where
  | given (config : WriteConfig)
  | ron (source : String)

def ConfigSource.config : ConfigSource → Except SceneError WriteConfig
  | .given config => .ok config
  | .ron source => (WriteConfig.parse source).mapError fun e => .config (.ron e)

inductive SceneAction where
  | version (number : UInt32)
  | output (path : String)
  | parts (body : PartsProgram)
  | snapshot
  | write
  | writeWith (config : ConfigSource) (writer : Writer)
  | parse (source : String)
  | fail (message : String)

abbrev SceneProgram := List (Step SceneAction)

namespace Build

variable {β : Type}

/-- What a closure does that returns an error of its own. -/
def failWith (message : String) : Build β Unit := throw (.invalidInput (.custom message))

def perform (place : List Nat) (step : String) (progress : β → Progress) (isCaught : Bool)
    (action : Build β Unit) : Build β Unit := fun s =>
  match action s with
  | .ok _ t => note (.finished place step (progress t.built) none) t
  | .error e t =>
    (do
      note (.finished place step (progress t.built) (some e))
      if isCaught then pure () else throw e : Build β Unit) t

/-- Runs the steps of a scope, the first of which has the given number. -/
def performAll {α : Type} (place : List Nat) (name : α → String) (progress : β → Progress)
    (run : List Nat → α → Build β Unit) : Nat → List (Step α) → Build β Unit
  | _, [] => pure ()
  | i, step :: steps => do
    perform (place ++ [i]) (name step.action) progress step.isCaught
      (run (place ++ [i]) step.action)
    performAll place name progress run (i + 1) steps

end Build

namespace MonologueProgram

def sayAll : List LineCall → Build Monologue Unit
  | [] => pure ()
  | call :: calls => do
    Monologue.say (← require call.line)
    sayAll calls

def run (place : List Nat) : Nat → MonologueProgram → Build Monologue Unit
  | _, .done => pure ()
  | i, .say call isCaught next => do
    perform (place ++ [i]) "say" (fun _ => .untracked) isCaught
      (do Monologue.say (← require call.line))
    run place (i + 1) next
  | i, .chain calls isCaught next => do
    perform (place ++ [i]) "chain" (fun _ => .untracked) isCaught (sayAll calls)
    run place (i + 1) next
  | i, .monologue body isCaught next => do
    perform (place ++ [i]) "monologue" (fun _ => .untracked) isCaught
      (Monologue.monologue (run (place ++ [i]) 0 body))
    run place (i + 1) next
  | i, .fail message isCaught next => do
    perform (place ++ [i]) "fail" (fun _ => .untracked) isCaught (failWith message)
    run place (i + 1) next

end MonologueProgram

namespace DialogueAction

def name : DialogueAction → String
  | .line _ => "line"
  | .narrate _ => "narrate"
  | .monologue _ => "monologue"
  | .fail _ => "fail"

def run (place : List Nat) : DialogueAction → Build Dialogue Unit
  | .line call => do Dialogue.line (← require call.line)
  | .narrate text => do Dialogue.narrate (← require (textOf text))
  | .monologue body => Dialogue.monologue (body.run place 0)
  | .fail message => failWith message

def progress (d : Dialogue) : Progress := .items d.lines.length

def runAll (place : List Nat) (steps : DialogueProgram) : Build Dialogue Unit :=
  performAll place name progress run 0 steps

end DialogueAction

namespace ChoicesAction

def name : ChoicesAction → String
  | .option _ _ => "option"
  | .fail _ => "fail"

def run (place : List Nat) : ChoicesAction → Build Choices Unit
  | .option name body => Choices.option name (DialogueAction.runAll place body)
  | .fail message => failWith message

def progress (b : Choices) : Progress := .items b.choices.length

def runAll (place : List Nat) (steps : ChoicesProgram) : Build Choices Unit :=
  performAll place name progress run 0 steps

end ChoicesAction

namespace PartsAction

def name : PartsAction → String
  | .dialogue _ => "dialogue"
  | .branch _ => "branch"
  | .branchWith _ _ => "branch_with"
  | .background _ => "background"
  | .sprite _ => "sprite"
  | .fail _ => "fail"

def run (place : List Nat) : PartsAction → Build Parts Unit
  | .dialogue body => Parts.dialogue (DialogueAction.runAll place body)
  | .branch body => Parts.branch (ChoicesAction.runAll place body)
  | .branchWith waitForAll body => Parts.branchWith waitForAll (ChoicesAction.runAll place body)
  | .background path => Parts.background path
  | .sprite path => Parts.sprite path
  | .fail message => failWith message

def progress (b : Parts) : Progress := .items b.parts.length

def runAll (place : List Nat) (steps : PartsProgram) : Build Parts Unit :=
  performAll place name progress run 0 steps

end PartsAction

namespace SceneAction

def name : SceneAction → String
  | .version _ => "version"
  | .output _ => "output"
  | .parts _ => "parts"
  | .snapshot => "snapshot"
  | .write => "write"
  | .writeWith _ _ => "write_with"
  | .parse _ => "parse"
  | .fail _ => "fail"

def run (place : List Nat) : SceneAction → Build Stage Unit
  | .version number => Stage.version number
  | .output path => Stage.output path
  | .parts body => Stage.parts (PartsAction.runAll place body)
  | .snapshot => Stage.snapshot
  | .write => Stage.write
  | .writeWith source writer =>
    match source.config with
    | .ok config => Stage.writeWith writer config
    | .error e => throw e
  | .parse source => Stage.parse source
  | .fail message => failWith message

def progress (stage : Stage) : Progress :=
  .scene stage.scene.version stage.scene.outputPath stage.scene.parts.length

def runAll (steps : SceneProgram) : Build Stage Unit := performAll [] name progress run 0 steps

end SceneAction

def SceneProgram.build (steps : SceneProgram) (source : ConfigSource) (writer : Writer)
    (world : World) : Outcome :=
  match source.config with
  | .ok config => Scene.buildWith writer config (SceneAction.runAll steps) world
  | .error e => ⟨.error e, world, []⟩

end SceneScript
