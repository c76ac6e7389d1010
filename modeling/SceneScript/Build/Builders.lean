import SceneScript.Build.Session

/-!
The builders. Each collects the content of one scope in the order of the calls; a nested scope is
built on its own, and its content is added when it closes.
-/
namespace SceneScript

open Build

structure Monologue where
  lines : List Line := []

structure Dialogue where
  lines : List Line := []

structure Choices where
  choices : List Choice := []

structure Parts where
  parts : List Part := []

namespace Monologue

def say (line : Line) : Build Monologue Unit := update fun m => ⟨m.lines ++ [line]⟩

/-- The lines of a nested monologue land here when it closes. -/
def monologue (body : Build Monologue Unit) : Build Monologue Unit := do
  let inner ← within {} body
  update fun m => ⟨m.lines ++ inner.lines⟩

end Monologue

namespace Dialogue

def line (line : Line) : Build Dialogue Unit := update fun d => ⟨d.lines ++ [line]⟩

def narrate (text : String) : Build Dialogue Unit := do
  line (← require (Speaker.narrator.speak text))

def monologue (body : Build Monologue Unit) : Build Dialogue Unit := do
  let inner ← within {} body
  log (.flattening inner.lines.length)
  update fun d => ⟨d.lines ++ inner.lines⟩

end Dialogue

namespace Choices

def option (name : String) (body : Build Dialogue Unit) : Build Choices Unit := do
  require (requireNonEmpty name .optionName)
  let dialogue ← within {} body
  log (.choiceClosed name dialogue.lines.length)
  update fun b => ⟨b.choices ++ [⟨name, dialogue.lines⟩]⟩

end Choices

namespace Parts

def append (part : Part) : Build Parts Unit := do
  log (.appending part.kind ((← built).parts.length + 1))
  update fun b => ⟨b.parts ++ [part]⟩

def dialogue (body : Build Dialogue Unit) : Build Parts Unit := do
  let inner ← within {} body
  append (.dialogue inner.lines)

def branchWith (waitForAll : Bool) (body : Build Choices Unit) : Build Parts Unit := do
  let inner ← within {} body
  append (.branch inner.choices waitForAll)

/-- A branch that the player can leave after any one choice. -/
def branch (body : Build Choices Unit) : Build Parts Unit := branchWith false body

def background (path : String) : Build Parts Unit := do
  require (requireNonEmpty path .backgroundPath)
  append (.imageChange { background := path })

def sprite (path : String) : Build Parts Unit := do
  require (requireNonEmpty path .spritePath)
  append (.imageChange { character := path })

end Parts

end SceneScript
