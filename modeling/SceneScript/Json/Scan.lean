import SceneScript.Json.Fault

/-!
Readers of text. A reader takes the characters that are left and leaves fewer of them, also when
it fails: what a failed reader has read stays read, for a fault without a place gets the place
that was reached.
-/
namespace SceneScript.Json

abbrev Scan := EStateM Fault (List Char)

namespace Scan

variable {α : Type}

/-- A fault behind the last character read. -/
def failHere (fault : Malformed) : Scan α := fun rest =>
  .error ⟨.malformed fault, some (Text.byteCount rest)⟩ rest

/-- A fault at the next byte, or at the end of the text if there is none. -/
def failAtNext (fault : Malformed) : Scan α := fun rest =>
  .error ⟨.malformed fault, some (Text.byteCount rest - 1)⟩ rest

/-- A fault of shape, as yet without a place. -/
def reject (fault : Unsuitable) : Scan α := fun rest =>
  .error ⟨.unsuitable fault, none⟩ rest

/-- Gives a fault that has no place the one that the reader has reached. -/
def placed (scan : Scan α) : Scan α := fun rest =>
  match scan rest with
  | .ok a rest => .ok a rest
  | .error f rest => .error ⟨f.cause, f.unread.or (some (Text.byteCount rest))⟩ rest

def accept : Except Unsuitable α → Scan α
  | .ok a => pure a
  | .error fault => reject fault

/-- Reads the inside of brackets and then their end. After a fault inside the end is read all the
same, if it is there, and the fault stays the one inside. -/
def closedBy (inside : Scan α) (close : Scan Unit) : Scan α := fun rest =>
  match inside rest with
  | .ok a rest =>
    match close rest with
    | .ok _ rest => .ok a rest
    | .error f rest => .error f rest
  | .error f rest =>
    match close rest with
    | .ok _ rest => .error f rest
    | .error _ rest => .error f rest

end Scan

def isBlank (c : Char) : Bool := c = ' ' || c = '\n' || c = '\t' || c = '\r'

def skipBlanks (cs : List Char) : List Char := cs.dropWhile isBlank

open Scan

def word : List Char → Scan Unit
  | [] => pure ()
  | c :: cs => fun rest =>
    match rest with
    | [] => failHere .endInValue rest
    | d :: tail => if d = c then word cs tail else failAtNext .expectedWord rest

def colon : Scan Unit := fun rest =>
  match skipBlanks rest with
  | [] => failAtNext .endInObject []
  | c :: tail => if c = ':' then .ok () tail else failAtNext .expectedColon (c :: tail)

/-- The end of a list. A comma that stands there instead is read, and the white space behind it,
but remains a fault. -/
def endList : Scan Unit := fun rest =>
  match skipBlanks rest with
  | [] => failAtNext .endInList []
  | ']' :: tail => .ok () tail
  | ',' :: tail =>
    match skipBlanks tail with
    | ']' :: tail => failAtNext .trailingComma (']' :: tail)
    | tail => failAtNext .trailingCharacters tail
  | rest => failAtNext .trailingCharacters rest

def endObject : Scan Unit := fun rest =>
  match skipBlanks rest with
  | [] => failAtNext .endInObject []
  | '}' :: tail => .ok () tail
  | ',' :: tail => failAtNext .trailingComma (',' :: tail)
  | rest => failAtNext .trailingCharacters rest

def endText : Scan Unit := fun rest =>
  match skipBlanks rest with
  | [] => .ok () []
  | rest => failAtNext .trailingCharacters rest

end SceneScript.Json
