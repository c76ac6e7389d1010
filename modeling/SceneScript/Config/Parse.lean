import SceneScript.Config.Basic
import SceneScript.Disk.Basic
import SceneScript.Ron.Value

/-!
Reading write configurations. A configuration is a record with an optional name; fields that it
does not give keep their defaults, fields that are not known are passed over, and extensions may
be enabled in front of it.
-/
namespace SceneScript

structure RonError where
  fault : Ron.Fault
  position : Text.Position
  deriving DecidableEq

inductive ConfigError where
  | file (fault : FileFault)
  | ron (error : RonError)
  deriving DecidableEq

def RonError.message (e : RonError) : String :=
  toString e.position.line ++ ":" ++ toString e.position.column ++ ": " ++ e.fault.message

def ConfigError.message : ConfigError → String
  | .file fault => "IO error: " ++ fault.message
  | .ron error => "RON deserialization error: " ++ error.message

namespace Ron

/-- Reads tokens one after the other, each with the white space behind it. A token that is missing
does not stop the others from being read, and neither does a fault in the white space. -/
def consumeAll : List String → Scan Bool
  | [] => pure true
  | token :: tokens => fun cursor =>
    let one : Scan Bool := do
      if ← consume token then
        skipBlanks
        pure true
      else pure false
    match one cursor with
    | .ok isThere cursor =>
      match consumeAll tokens cursor with
      | .ok others cursor => .ok (isThere && others) cursor
      | .error fault cursor => .error fault cursor
    | .error fault cursor =>
      match consumeAll tokens cursor with
      | .ok _ cursor => .error fault cursor
      | .error _ cursor => .error fault cursor

/-- The extensions there are, and whether each lets options stand unwrapped. -/
def extensionNames : List (String × Bool) :=
  [("unwrap_newtypes", false), ("implicit_some", true), ("unwrap_variant_newtypes", false)]

def extensionList : Nat → Bool → Scan Bool
  | 0, _ => throw .endOfText
  | fuel + 1, implicitSome => do
    let name ← identifier
    match extensionNames.lookup name with
    | none => throw (.unknownExtension name)
    | some isImplicit =>
      let implicitSome := implicitSome || isImplicit
      let hadComma ← comma
      let another := (← peek).any isOther
      if another then
        if hadComma then extensionList fuel implicitSome else throw .expectedComma
      else pure implicitSome

def enableAttribute : Scan Bool := do
  if ← consumeAll ["#", "!", "[", "enable", "("] then
    skipBlanks
    let implicitSome ← (fun cursor =>
      extensionList (cursor.rest.length + 1) false cursor : Scan Bool)
    skipBlanks
    if ← consumeAll [")", "]"] then pure implicitSome else throw .expectedAttributeEnd
  else throw .expectedAttribute

def attributes : Nat → Bool → Scan Bool
  | 0, implicitSome => pure implicitSome
  | fuel + 1, implicitSome => do
    if (← peek) = some '#' then
      let isImplicit ← enableAttribute
      skipBlanks
      attributes fuel (implicitSome || isImplicit)
    else pure implicitSome

/-- The name of a record, which may be left out but may not be another one. -/
def recordName (name : String) : Scan Unit := fun cursor =>
  if cursor.rest.head?.any isOther then
    match identifier cursor with
    | .ok found cursor =>
      if found = name then .ok () cursor else .error (.differentRecord name found) cursor
    | .error (.suggestRaw found) cursor =>
      if found = name then .error (.suggestRaw found) cursor
      else .error (.expectedRecord name) cursor
    | .error _ cursor => .error (.expectedRecord name) cursor
  else .ok () cursor

/-- A truth value is told by its first letters. -/
def bool : Scan Bool := do
  if ← consume "true" then pure true
  else if ← consume "false" then pure false
  else throw .expectedBoolean

def depthLimit : Nat := 128

end Ron

namespace WriteConfig

open Ron

def recordTitle : String := "WriteConfig"

structure Given where
  pretty : Option Bool := none
  createParentDirs : Option Bool := none

def Given.complete (given : Given) : WriteConfig where
  pretty := given.pretty.getD ({} : WriteConfig).pretty
  createParentDirs := given.createParentDirs.getD ({} : WriteConfig).createParentDirs

def fieldValue {α : Type} (value : Ron.Scan α) : Ron.Scan α := do
  skipBlanks
  if ← consume ":" then
    skipBlanks
    value
  else throw .expectedColon

/-- One field. A known one that was given before is refused before its value. -/
def readField (implicitSome : Bool) (given : Given) : Ron.Scan Given := do
  let key ← identifier
  if key = prettyName then
    if given.pretty.isSome then throw (.duplicateField key recordTitle)
    else
      let b ← fieldValue bool
      pure { given with pretty := some b }
  else if key = createParentDirsName then
    if given.createParentDirs.isSome then throw (.duplicateField key recordTitle)
    else
      let b ← fieldValue bool
      pure { given with createParentDirs := some b }
  else
    fieldValue (value implicitSome (depthLimit - 2))
    pure given

/-- The fields up to the closing parenthesis. The first argument bounds the number of rounds. -/
def readFields (implicitSome : Bool) : Nat → Bool → Given → Ron.Scan Given
  | 0, _, _ => throw .endOfText
  | fuel + 1, hadComma, given => do
    if ← hasElement ')' hadComma then
      let given ← readField implicitSome given
      let hadComma ← comma
      readFields implicitSome fuel hadComma given
    else pure given

def read : Ron.Scan WriteConfig := do
  skipBlanks
  let implicitSome ← (fun cursor =>
    attributes (cursor.rest.length + 1) false cursor : Ron.Scan Bool)
  recordName recordTitle
  skipBlanks
  if ← consume "(" then
    let given ← (fun cursor => readFields implicitSome (cursor.rest.length + 1) true {} cursor :
      Ron.Scan Given)
    skipBlanks
    if ← consume ")" then
      skipBlanks
      if (← peek).isSome then throw .trailingCharacters
      pure given.complete
    else throw .expectedRecordEnd
  else throw (.expectedRecord recordTitle)

def parse (source : String) : Except RonError WriteConfig :=
  match read ⟨source.toList, ⟨1, 1⟩⟩ with
  | .ok config _ => .ok config
  | .error fault cursor => .error ⟨fault, cursor.position⟩

def load (disk : Disk) (path : String) : Except ConfigError WriteConfig :=
  match disk.readText path with
  | .error fault => .error (.file fault)
  | .ok source => (parse source).mapError ConfigError.ron

end WriteConfig

end SceneScript
