/-!
Paths as the file system reads them: names between slashes, of which a single dot stays where it
is and a double dot goes up.
-/
namespace SceneScript

/-- A name in a path, with the length in bytes of the path up to the end of that name. -/
structure Segment where
  name : String
  reach : Nat
  deriving DecidableEq

/-- A path cut at its slashes. Repeated slashes count once; one at the end is remembered, for it
asks for a directory. -/
structure Path where
  isAbsolute : Bool
  segments : List Segment
  endsInSlash : Bool
  deriving DecidableEq

namespace Path

/-- The pieces between slashes, empty ones included. -/
def pieces : List Char → List (List Char)
  | [] => [[]]
  | c :: cs =>
    if c = '/' then [] :: pieces cs
    else match pieces cs with
      | [] => [[c]]
      | piece :: rest => (c :: piece) :: rest

/-- The pieces that are names. The first argument is the length of what stands before them. -/
def segmentsOf : Nat → List (List Char) → List Segment
  | _, [] => []
  | before, piece :: rest =>
    let name := String.ofList piece
    let reach := before + name.utf8ByteSize
    if piece.isEmpty then segmentsOf (reach + 1) rest
    else ⟨name, reach⟩ :: segmentsOf (reach + 1) rest

def ofString (s : String) : Path where
  isAbsolute := s.toList.head? = some '/'
  segments := segmentsOf 0 (pieces s.toList)
  endsInSlash := s.toList.getLast? = some '/'

def names (path : Path) : List String := path.segments.map (·.name)

/-- The segments that count when a path is taken apart: a single dot counts only at the very front
of a relative path. -/
def components (path : Path) : List Segment :=
  match path.segments with
  | [] => []
  | segment :: segments =>
    let rest := segments.filter (·.name ≠ ".")
    if segment.name = "." && path.isAbsolute then rest else segment :: rest

def parent (path : Path) : List Segment := path.components.dropLast

end Path

end SceneScript
