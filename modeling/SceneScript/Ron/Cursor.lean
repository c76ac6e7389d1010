import SceneScript.Ron.Fault
import SceneScript.Text.Position

/-!
Reading object notation: the text that is left, and where the reader stands in it. Lines and
columns count from one, columns in bytes. The counted place can be ahead of the text, where the
reader has gone back or has stopped inside a character, so it is carried along and not computed
from the text.
-/
namespace SceneScript.Ron

structure Cursor where
  rest : List Char
  position : Text.Position

abbrev Scan := EStateM Fault Cursor

def Cursor.behind (p : Text.Position) (c : Char) : Text.Position :=
  if c = '\n' then ⟨p.line + 1, 1⟩ else ⟨p.line, p.column + c.utf8Size⟩

def Cursor.advance (cursor : Cursor) (count : Nat) : Cursor :=
  ⟨cursor.rest.drop count, (cursor.rest.take count).foldl behind cursor.position⟩

/-- The first byte of a character's encoding. -/
def leadByte (c : Char) : Nat :=
  let n := c.toNat
  if n < 0x80 then n
  else if n < 0x800 then 0xC0 + n / 0x40
  else if n < 0x10000 then 0xE0 + n / 0x1000
  else 0xF0 + n / 0x40000

variable {α : Type}

def peek : Scan (Option Char) := fun cursor => .ok cursor.rest.head? cursor

/-- The next character, which must be there. -/
def peekOrEnd : Scan Char := fun cursor =>
  match cursor.rest with
  | [] => .error .endOfText cursor
  | c :: _ => .ok c cursor

def skip (count : Nat) : Scan Unit := fun cursor => .ok () (cursor.advance count)

/-- Fails at the next character, of which only the first byte is read. A character of more bytes is
still left in the text then: no token begins with what remains of it, nor with the character. -/
def byteFault (c : Char) (fault : Fault) : Scan α := fun cursor =>
  if c.utf8Size = 1 then .error fault (cursor.advance 1)
  else .error fault ⟨cursor.rest, ⟨cursor.position.line, cursor.position.column + 1⟩⟩

def consume (text : String) : Scan Bool := fun cursor =>
  if text.toList.isPrefixOf cursor.rest then .ok true (cursor.advance text.toList.length)
  else .ok false cursor

def takeWhile (p : Char → Bool) : Scan (List Char) := fun cursor =>
  let taken := cursor.rest.takeWhile p
  .ok taken (cursor.advance taken.length)

def isBlank (c : Char) : Bool := c = ' ' || c = '\n' || c = '\t' || c = '\r'

/-- Passes over a block comment from behind its opening; the second argument is the number of
comments that are open inside each other. -/
def blockComment : Nat → Nat → Scan Unit
  | _, 0 => pure ()
  | 0, _ => throw .unclosedComment
  | fuel + 1, level + 1 => fun cursor =>
    match cursor.rest with
    | [] => .error .unclosedComment cursor
    | '/' :: '*' :: _ => blockComment fuel (level + 2) (cursor.advance 2)
    | '*' :: '/' :: _ => blockComment fuel level (cursor.advance 2)
    | _ => blockComment fuel (level + 1) (cursor.advance 1)

def comment : Scan Bool := do
  if ← consume "/" then
    match ← peekOrEnd with
    | '/' =>
      let _ ← takeWhile (· ≠ '\n')
      pure true
    | '*' =>
      skip 1
      fun cursor => (do blockComment (cursor.rest.length + 1) 1; pure true : Scan Bool) cursor
    | c => byteFault c (.unexpectedByte (leadByte c))
  else pure false

def blanksAndComments : Nat → Scan Unit
  | 0 => pure ()
  | fuel + 1 => do
    let _ ← takeWhile isBlank
    if ← comment then blanksAndComments fuel else pure ()

def skipBlanks : Scan Unit := fun cursor => blanksAndComments (cursor.rest.length + 1) cursor

/-- Reads a comma, if one follows, and what may stand behind it. -/
def comma : Scan Bool := do
  skipBlanks
  if ← consume "," then
    skipBlanks
    pure true
  else pure false

end SceneScript.Ron
