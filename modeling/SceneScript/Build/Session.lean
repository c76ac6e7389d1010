import SceneScript.Config.Parse
import SceneScript.Document.Decode

/-!
Sessions in which scenes are built. A builder holds what was added so far; beside it runs a journal
of everything that happened. An operation may fail, and then the journal still tells what happened
until then.
-/
namespace SceneScript

inductive SceneError where
  | invalidInput (fault : InvalidInput)
  | write (path : String) (fault : FileFault)
  | json (error : Json.Error)
  | config (error : ConfigError)
  deriving DecidableEq

def SceneError.message : SceneError → String
  | .invalidInput fault => "invalid input: " ++ fault.message
  | .write path fault => "failed to write scene to '" ++ path ++ "': " ++ fault.message
  | .json error => "JSON error: " ++ error.message
  | .config error => "config error: " ++ error.message

inductive Level where
  | debug
  | info
  | warn
  deriving DecidableEq

inductive Record where
  | appending (kind : Kind) (number : Nat)
  | flattening (lines : Nat)
  | choiceClosed (name : String) (lines : Nat)
  | replacing (parts : Nat)
  | writeSkipped
  | written (path : String) (bytes : Nat)
  deriving DecidableEq

def Record.level : Record → Level
  | .replacing _ => .warn
  | .written _ _ => .info
  | _ => .debug

def Record.message : Record → String
  | .appending kind number => "appending " ++ kind.tag ++ " part #" ++ toString number
  | .flattening lines => "flattening monologue of " ++ toString lines ++ " lines"
  | .choiceClosed name lines => "option '" ++ name ++ "' closed with " ++ toString lines ++ " lines"
  | .replacing parts => "replacing " ++ toString parts ++ " previously built scene parts"
  | .writeSkipped => "no output path set; skipping scene write"
  | .written path bytes => "wrote scene to '" ++ path ++ "' (" ++ toString bytes ++ " bytes)"

inductive Progress where
  | scene (version : String) (outputPath : Option String) (parts : Nat)
  | items (count : Nat)
  | untracked
  deriving DecidableEq

/-- A step of a program is known by its name and by the numbers of the steps that lead to it, from
the outermost scope inwards. -/
inductive Event where
  | record (record : Record)
  | finished (place : List Nat) (step : String) (progress : Progress) (error : Option SceneError)
  | snapshot (scene : Scene)
  deriving DecidableEq

structure Session (β : Type) where
  built : β
  journal : List Event := []

abbrev Build (β : Type) := EStateM SceneError (Session β)

namespace Build

variable {α β γ : Type}

def note (event : Event) : Build β Unit := fun s =>
  .ok () { s with journal := s.journal ++ [event] }

def log (record : Record) : Build β Unit := note (.record record)

def built : Build β β := fun s => .ok s.built s

def update (f : β → β) : Build β Unit := fun s => .ok () { s with built := f s.built }

/-- An argument that is refused ends the operation. -/
def require : Except InvalidInput α → Build β α
  | .ok a => pure a
  | .error fault => throw (.invalidInput fault)

/-- Runs an operation on a builder of its own and returns what it has built in the end. The journal
goes on in either case; if the operation fails, what it had built is lost. -/
def within (blank : γ) (body : Build γ Unit) : Build β γ := fun s =>
  match body ⟨blank, s.journal⟩ with
  | .ok _ t => .ok t.built { s with journal := t.journal }
  | .error e t => .error e { s with journal := t.journal }

end Build

end SceneScript
