import SceneScript.Scene.Basic

/-!
Speakers and the lines they speak. In a document a line carries its speaker's name as a key, so
a name may be neither empty nor the key that carries a line's image.
-/
namespace SceneScript

def imageKey : String := "image"

inductive Argument where
  | speakerName
  | dialogueText
  | optionName
  | backgroundPath
  | spritePath
  deriving DecidableEq

def Argument.description : Argument → String
  | .speakerName => "speaker name"
  | .dialogueText => "dialogue text"
  | .optionName => "option name"
  | .backgroundPath => "background path"
  | .spritePath => "sprite path"

inductive InvalidInput where
  | empty (argument : Argument)
  | reservedName
  | custom (message : String)
  deriving DecidableEq

def InvalidInput.message : InvalidInput → String
  | .empty argument => argument.description ++ " must not be empty"
  | .reservedName => "speaker name '" ++ imageKey ++ "' is reserved for image cues"
  | .custom message => message

def requireNonEmpty (value : String) (argument : Argument) : Except InvalidInput Unit :=
  if value = "" then .error (.empty argument) else .ok ()

structure Speaker where
  name : String
  deriving DecidableEq

namespace Speaker

def narrator : Speaker := ⟨"narrator"⟩

def ofName (name : String) : Except InvalidInput Speaker :=
  if name = "" then .error (.empty .speakerName)
  else if name = imageKey then .error .reservedName
  else .ok ⟨name⟩

/-- The empty image name means that the line has no image. -/
def speakWithImage (speaker : Speaker) (text image : String) : Except InvalidInput Line :=
  if text = "" then .error (.empty .dialogueText)
  else .ok ⟨speaker.name, text, if image = "" then none else some image⟩

def speak (speaker : Speaker) (text : String) : Except InvalidInput Line :=
  speaker.speakWithImage text ""

/-- A name is accepted if it is not empty and not reserved. -/
theorem ofName_eq_ok_iff {name : String} {speaker : Speaker} :
    ofName name = .ok speaker ↔ name ≠ "" ∧ name ≠ imageKey ∧ speaker = ⟨name⟩ := by
  unfold ofName
  split
  · simp_all
  · split <;> simp_all [eq_comm]

theorem speakWithImage_eq_ok_iff {speaker : Speaker} {text image : String} {line : Line} :
    speaker.speakWithImage text image = .ok line ↔
      text ≠ "" ∧ line = ⟨speaker.name, text, if image = "" then none else some image⟩ := by
  unfold speakWithImage
  split <;> simp_all [eq_comm]

end Speaker

end SceneScript
