import SceneScript.Scene.Basic

/-!
Structural checks of scenes. Findings come in the order of the parts, and those about one branch
in the order of its choices.
-/
namespace SceneScript.Lint

inductive Problem where
  | noLines
  | fewChoices (count : Nat)
  | repeatedName (name : String)
  | noFollowUp (name : String)
  | ambiguousImage
  deriving DecidableEq

/-- The number of a part counts from one. -/
inductive Finding where
  | noParts
  | inPart (number : Nat) (kind : Kind) (problem : Problem)
  deriving DecidableEq

def Problem.message : Problem → String
  | .noLines => "has no lines"
  | .fewChoices count =>
    "has only " ++ toString count ++ " option(s) (a choice needs at least 2)"
  | .repeatedName name => "repeats option name '" ++ name ++ "'"
  | .noFollowUp name => "option '" ++ name ++ "' has no follow-up dialogue"
  | .ambiguousImage => "should set exactly one of backgroundImage and characterImage"

def Finding.message : Finding → String
  | .noParts => "Scene has no parts"
  | .inPart number kind problem =>
    "Part " ++ toString number ++ " (" ++ kind.tag ++ ") " ++ problem.message

/-- Problems of the choices of one branch, given the names of those before. -/
def choiceProblems (seen : List String) : List Choice → List Problem
  | [] => []
  | choice :: choices =>
    (if choice.name ∈ seen then [.repeatedName choice.name] else []) ++
      (if choice.dialogue.isEmpty then [.noFollowUp choice.name] else []) ++
      choiceProblems (choice.name :: seen) choices

def partProblems : Part → List Problem
  | .dialogue lines => if lines.isEmpty then [.noLines] else []
  | .branch choices _ =>
    (if choices.length < 2 then [.fewChoices choices.length] else []) ++ choiceProblems [] choices
  | .imageChange change =>
    if (change.background = "") = (change.character = "") then [.ambiguousImage] else []

/-- Findings about parts of which the first has the given number. -/
def partFindings (number : Nat) : List Part → List Finding
  | [] => []
  | part :: parts =>
    (partProblems part).map (.inPart number part.kind) ++ partFindings (number + 1) parts

def findings (scene : Scene) : List Finding :=
  if scene.parts.isEmpty then [.noParts] else partFindings 1 scene.parts

def warnings (scene : Scene) : List String := (findings scene).map Finding.message

end SceneScript.Lint
