import SceneScript.Proofs.Build.Arguments

/-!
What programs mean, said without builders: the content that their steps add up to, and the faults
of their arguments in the order of the calls.
-/
namespace SceneScript

namespace MonologueProgram

def faults : MonologueProgram → List InvalidInput
  | .done => []
  | .say call _ next => call.faults ++ next.faults
  | .chain calls _ next => calls.flatMap LineCall.faults ++ next.faults
  | .monologue body _ next => body.faults ++ next.faults
  | .fail _ _ next => next.faults

/-- The lines of a nested monologue stand at its own place. -/
def lines : MonologueProgram → List Line
  | .done => []
  | .say call _ next => call.meant :: next.lines
  | .chain calls _ next => calls.map LineCall.meant ++ next.lines
  | .monologue body _ next => body.lines ++ next.lines
  | .fail _ _ next => next.lines

/-- Nothing is caught, and nothing fails by itself. -/
def IsPlain : MonologueProgram → Prop
  | .done => True
  | .say _ isCaught next => isCaught = false ∧ next.IsPlain
  | .chain _ isCaught next => isCaught = false ∧ next.IsPlain
  | .monologue body isCaught next => isCaught = false ∧ body.IsPlain ∧ next.IsPlain
  | .fail _ _ _ => False

end MonologueProgram

def AllPlain {α : Type} (isPlain : α → Prop) (steps : List (Step α)) : Prop :=
  ∀ step ∈ steps, step.isCaught = false ∧ isPlain step.action

def collect {α γ : Type} (contribution : α → List γ) (steps : List (Step α)) : List γ :=
  steps.flatMap fun step => contribution step.action

namespace DialogueAction

def faults : DialogueAction → List InvalidInput
  | .line call => call.faults
  | .narrate text => textFaults text
  | .monologue body => body.faults
  | .fail _ => []

def lines : DialogueAction → List Line
  | .line call => [call.meant]
  | .narrate text => [⟨"narrator", meantText text, none⟩]
  | .monologue body => body.lines
  | .fail _ => []

def IsPlain : DialogueAction → Prop
  | .monologue body => body.IsPlain
  | .fail _ => False
  | _ => True

end DialogueAction

namespace ChoicesAction

def faults : ChoicesAction → List InvalidInput
  | .option name body => emptyFaults name .optionName ++ collect DialogueAction.faults body
  | .fail _ => []

def choices : ChoicesAction → List Choice
  | .option name body => [⟨name, collect DialogueAction.lines body⟩]
  | .fail _ => []

def IsPlain : ChoicesAction → Prop
  | .option _ body => AllPlain DialogueAction.IsPlain body
  | .fail _ => False

end ChoicesAction

namespace PartsAction

def faults : PartsAction → List InvalidInput
  | .dialogue body => collect DialogueAction.faults body
  | .branch body => collect ChoicesAction.faults body
  | .branchWith _ body => collect ChoicesAction.faults body
  | .background path => emptyFaults path .backgroundPath
  | .sprite path => emptyFaults path .spritePath
  | .fail _ => []

def parts : PartsAction → List Part
  | .dialogue body => [.dialogue (collect DialogueAction.lines body)]
  | .branch body => [.branch (collect ChoicesAction.choices body) false]
  | .branchWith waitForAll body => [.branch (collect ChoicesAction.choices body) waitForAll]
  | .background path => [.imageChange ⟨path, ""⟩]
  | .sprite path => [.imageChange ⟨"", path⟩]
  | .fail _ => []

def IsPlain : PartsAction → Prop
  | .dialogue body => AllPlain DialogueAction.IsPlain body
  | .branch body => AllPlain ChoicesAction.IsPlain body
  | .branchWith _ body => AllPlain ChoicesAction.IsPlain body
  | .fail _ => False
  | _ => True

end PartsAction

namespace SceneAction

def faults : SceneAction → List InvalidInput
  | .parts body => collect PartsAction.faults body
  | _ => []

def versions : SceneAction → List UInt32
  | .version number => [number]
  | _ => []

def outputs : SceneAction → List String
  | .output path => [path]
  | _ => []

def bodies : SceneAction → List PartsProgram
  | .parts body => [body]
  | _ => []

def IsPlain : SceneAction → Prop
  | .version _ => True
  | .output _ => True
  | .parts body => AllPlain PartsAction.IsPlain body
  | _ => False

end SceneAction

/-- The last step of each kind decides. -/
def SceneProgram.meant (steps : SceneProgram) : Scene where
  version := ((collect SceneAction.versions steps).getLast?.map fun n => toString n.toNat).getD "1"
  parts := ((collect SceneAction.bodies steps).getLast?.map (collect PartsAction.parts)).getD []
  outputPath := (collect SceneAction.outputs steps).getLast?.filter (· ≠ "")

end SceneScript
