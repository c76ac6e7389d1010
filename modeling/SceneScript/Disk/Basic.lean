import SceneScript.Disk.Fault
import SceneScript.Disk.Path

/-!
A file system of regular files and directories, without links and without permissions. Entries are
kept by their place; what a path means is found by walking it name by name.
-/
namespace SceneScript

inductive Entry where
  | file (contents : ByteArray)
  | directory

/-- The names from an entry up to the root, its own name first. The root has none. -/
abbrev Place := List String

/-- The entries below the root, and the place relative paths start from. -/
structure Disk where
  entries : List (Place × Entry) := []
  workingDirectory : Place := []

namespace Disk

/-- The root is always there. -/
def find? (disk : Disk) (place : Place) : Option Entry :=
  if place = [] then some .directory else disk.entries.lookup place

def put (disk : Disk) (place : Place) (entry : Entry) : Disk :=
  { disk with entries := (place, entry) :: disk.entries.filter (·.1 ≠ place) }

/-- The entry put at a place is the one found there; the root stays a directory. -/
theorem find?_put_self (disk : Disk) {place : Place} (entry : Entry) (h : place ≠ []) :
    (disk.put place entry).find? place = some entry := by
  simp [find?, put, h]

/-- Other places keep what they had. -/
theorem find?_put_of_ne (disk : Disk) {place other : Place} (entry : Entry) (h : other ≠ place) :
    (disk.put place entry).find? other = disk.find? other := by
  have absent : (other == place) = false := by simp [h]
  have kept (entries : List (Place × Entry)) :
      (entries.filter (·.1 ≠ place)).lookup other = entries.lookup other := by
    induction entries with
    | nil => rfl
    | cons p entries ih =>
      by_cases hp : p.1 = place
      · have hother : (other == p.1) = false := by simp [hp, h]
        rw [List.filter_cons_of_neg (by simpa using hp), ih, List.lookup_cons, hother]
      · rw [List.filter_cons_of_pos (by simpa using hp), List.lookup_cons, List.lookup_cons, ih]
  simp only [find?, put, List.lookup_cons, absent, kept]

def nameLimit : Nat := 255

def pathLimit : Nat := 4095

abbrev Access (α : Type) := Except FileFault α

def refuse {α : Type} (fault : SystemFault) : Access α := .error (.system fault)

/-- Walks down from a directory. Every name on the way must be that of a directory. -/
def walk (disk : Disk) : Place → List String → Access Place
  | place, [] => .ok place
  | place, name :: names =>
    if name = "." then disk.walk place names
    else if name = ".." then disk.walk place.tail names
    else if nameLimit < name.utf8ByteSize then refuse .nameTooLong
    else match disk.find? (name :: place) with
      | none => refuse .noSuchEntry
      | some (.file _) => refuse .notADirectory
      | some .directory => disk.walk (name :: place) names

/-- What the last name of a path stands for. -/
inductive Target where
  | directory
  | entry (place : Place)

/-- Finds what names stand for: a directory if the last one is dots or there is none, and
otherwise an entry, present or not, of a directory that is there. -/
def target (disk : Disk) (start : Place) (names : List String) : Access Target :=
  match names.getLast? with
  | none => .ok .directory
  | some name => do
    let place ← disk.walk start names.dropLast
    if name = "." ∨ name = ".." then .ok .directory else .ok (.entry (name :: place))

def checkName (place : Place) : Access Unit :=
  match place with
  | name :: _ => if nameLimit < name.utf8ByteSize then refuse .nameTooLong else .ok ()
  | [] => .ok ()

def hasNul (s : String) : Bool := s.toList.contains (Char.ofNat 0)

def checkPath (path : String) : Access Unit :=
  if hasNul path then .error .nulInPath
  else if pathLimit < path.utf8ByteSize then refuse .nameTooLong
  else if path = "" then refuse .noSuchEntry
  else .ok ()

def startOf (disk : Disk) (path : Path) : Place :=
  if path.isAbsolute then [] else disk.workingDirectory

def readBytes (disk : Disk) (path : String) : Access ByteArray := do
  checkPath path
  let p := Path.ofString path
  match ← disk.target (disk.startOf p) p.names with
  | .directory => refuse .isADirectory
  | .entry place =>
    checkName place
    match disk.find? place with
    | none => refuse .noSuchEntry
    | some .directory => refuse .isADirectory
    | some (.file contents) => if p.endsInSlash then refuse .notADirectory else .ok contents

def textOf (bytes : ByteArray) : Access String :=
  match String.fromUTF8? bytes with
  | some text => .ok text
  | none => .error .notText

def readText (disk : Disk) (path : String) : Access String := do
  textOf (← disk.readBytes path)

def writeBytes (disk : Disk) (path : String) (contents : ByteArray) : Access Disk := do
  checkPath path
  let p := Path.ofString path
  match ← disk.target (disk.startOf p) p.names with
  | .directory => refuse .isADirectory
  | .entry place =>
    if p.endsInSlash then refuse .isADirectory
    else do
      checkName place
      match disk.find? place with
      | some .directory => refuse .isADirectory
      | _ => .ok (disk.put place (.file contents))

def checkSegments (segments : List Segment) : Access Unit :=
  if segments.any (hasNul ·.name) then .error .nulInPath
  else if segments.any (pathLimit < ·.reach) then refuse .nameTooLong
  else .ok ()

def makeDirectory (disk : Disk) (start : Place) (segments : List Segment) : Access Disk := do
  checkSegments segments
  match ← disk.target start (segments.map (·.name)) with
  | .directory => refuse .entryExists
  | .entry place =>
    checkName place
    match disk.find? place with
    | some _ => refuse .entryExists
    | none => .ok (disk.put place .directory)

def isDirectory (disk : Disk) (start : Place) (segments : List Segment) : Bool :=
  match checkSegments segments, disk.walk start (segments.map (·.name)) with
  | .ok _, .ok _ => true
  | _, _ => false

def ensureDirectory (disk : Disk) (start : Place) (segments : List Segment) : Access Disk :=
  match disk.makeDirectory start segments with
  | .ok disk => .ok disk
  | .error fault => if disk.isDirectory start segments then .ok disk else .error fault

/-- Makes a directory and those above it that are missing, the uppermost first. The segments are
given from the last one up. What was made stays, also if a later step fails. -/
def ensureAll (disk : Disk) (start : Place) : List Segment → Access Unit × Disk
  | [] => (.ok (), disk)
  | segment :: above =>
    match disk.ensureDirectory start (segment :: above).reverse with
    | .ok disk => (.ok (), disk)
    | .error (.system .noSuchEntry) =>
      match disk.ensureAll start above with
      | (.ok _, disk) =>
        match disk.ensureDirectory start (segment :: above).reverse with
        | .ok disk => (.ok (), disk)
        | .error fault => (.error fault, disk)
      | failed => failed
    | .error fault => (.error fault, disk)

def ensureParent (disk : Disk) (path : String) : Access Unit × Disk :=
  let p := Path.ofString path
  disk.ensureAll (disk.startOf p) p.parent.reverse

def writeFile (disk : Disk) (path : String) (contents : ByteArray) (makeParents : Bool) :
    Access Unit × Disk :=
  match if makeParents then disk.ensureParent path else (.ok (), disk) with
  | (.ok _, disk) =>
    match disk.writeBytes path contents with
    | .ok disk => (.ok (), disk)
    | .error fault => (.error fault, disk)
  | failed => failed

/-- The entries below the working directory with the paths that lead there, in the order of the
paths. -/
def listing (disk : Disk) : List (String × Entry) :=
  let relative (p : Place × Entry) : Option (String × Entry) :=
    let depth := p.1.length - disk.workingDirectory.length
    if p.1.drop depth = disk.workingDirectory ∧ 0 < depth then
      some (String.intercalate "/" (p.1.take depth).reverse, p.2)
    else none
  (disk.entries.filterMap relative).mergeSort fun p q => decide (p.1 ≤ q.1)

end Disk

end SceneScript
