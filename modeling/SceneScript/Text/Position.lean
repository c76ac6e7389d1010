/-!
Places in a text, and sizes in bytes of its encoding in UTF-8.
-/
namespace SceneScript.Text

/-- Lines are counted from one. The column is the number of bytes since the last line feed. -/
structure Position where
  line : Nat
  column : Nat
  deriving DecidableEq

def byteCount (cs : List Char) : Nat := cs.foldr (fun c count => c.utf8Size + count) 0

/-- The place reached from another one after so many bytes, which may end inside a character. -/
def Position.advance (p : Position) : Nat → List Char → Position
  | _, [] => p
  | bytes, c :: cs =>
    if bytes < c.utf8Size then ⟨p.line, p.column + bytes⟩
    else if c = '\n' then advance ⟨p.line + 1, 0⟩ (bytes - 1) cs
    else advance ⟨p.line, p.column + c.utf8Size⟩ (bytes - c.utf8Size) cs

def Position.after (bytes : Nat) (text : List Char) : Position :=
  Position.advance ⟨1, 0⟩ bytes text

end SceneScript.Text
