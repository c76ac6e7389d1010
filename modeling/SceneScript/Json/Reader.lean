import SceneScript.Json.Read

/-!
Readers of values of a known shape. A reader serves two sources: the text, where it meets faults of
grammar and of shape in the order in which they stand and closes brackets behind a fault before it
places it, and a value that has been read already. The combinators build both sides at once.
-/
namespace SceneScript.Json

open Scan

/-- Reads from a text, in which only so many brackets may still be opened inside each other, or
from a value. -/
structure Reader (α : Type) where
  fromText : Nat → Scan α
  fromValue : Json → Except Unsuitable α

/-- The fault of a value of the wrong type. Only a value without parts is read. -/
def wrongType {α : Type} (expected : String) : Scan α := fun rest =>
  match rest with
  | '[' :: _ => reject (.wrongType .array expected) rest
  | '{' :: _ => reject (.wrongType .object expected) rest
  | _ => (do let v ← scalar; reject (.wrongType (found v) expected)) rest

def stringOr {α : Type} (other string : Scan α) : Scan α := fun rest =>
  match skipBlanks rest with
  | [] => failAtNext .endInValue []
  | c :: tail => if c = '"' then string tail else other (c :: tail)

namespace Reader

variable {α β σ : Type}

def map (f : α → β) (r : Reader α) : Reader β where
  fromText depth := f <$> r.fromText depth
  fromValue v := f <$> r.fromValue v

/-- A check of what was read, whose fault is placed by the reader around it. -/
def filterMap (f : α → Except Unsuitable β) (r : Reader α) : Reader β where
  fromText depth := do accept (f (← r.fromText depth))
  fromValue v := do f (← r.fromValue v)

/-- A string that names one of several things; the fault of an unknown name lies behind it. -/
def text (expected : String) (f : String → Except Unsuitable α) : Reader α where
  fromText _ := placed (stringOr (wrongType expected) do accept (f (← readString)))
  fromValue
    | .string s => f s
    | v => .error (.wrongType (found v) expected)

def string : Reader String := text "a string" .ok

def keyword (expected : String) (meanings : List (String × α)) : Reader α :=
  text expected fun name =>
    match meanings.lookup name with
    | some a => .ok a
    | none => .error (.unknownVariant name (meanings.map Prod.fst))

def list (r : Reader α) : Reader (List α) where
  fromText depth :=
    valueOf (nested (fun depth => itemsToEnd (r.fromText depth) true) endList depth)
      (wrongType "a sequence") (wrongType "a sequence")
  fromValue
    | .array vs => vs.mapM r.fromValue
    | v => .error (.wrongType (found v) "a sequence")

/-- An object of which every member counts: a state takes in one member after the other and is
judged at the end. -/
def entries (expected : String) (value : Reader α) (start : σ)
    (add : σ → String → α → Except Unsuitable σ) (finish : σ → Except Unsuitable β) :
    Reader β where
  fromText depth :=
    let member (depth : Nat) (s : σ) (key : String) : Scan σ := do
      colon
      accept (add s key (← value.fromText depth))
    valueOf (wrongType expected)
      (nested (fun depth => do accept (finish (← membersToEnd (member depth) start))) endObject
        depth)
      (wrongType expected)
  fromValue
    | .object ms => do
      let member (s : σ) (m : String × Json) : Except Unsuitable σ := do
        add s m.1 (← value.fromValue m.2)
      finish (← ms.foldlM member start)
    | v => .error (.wrongType (found v) expected)

end Reader

/-- A field of a record, with the reader of what it puts into the record. A record that lacks an
optional field keeps what it had there. -/
structure Field (σ : Type) where
  name : String
  fill : Reader (σ → σ)
  isRequired : Bool := true

def field {α σ : Type} (name : String) (r : Reader α) (put : α → σ → σ) : Field σ where
  name := name
  fill := r.map put

def optionalField {α σ : Type} (name : String) (r : Reader α) (put : α → σ → σ) : Field σ where
  name := name
  fill := r.map put
  isRequired := false

/-- The fields of a record that were given so far, each with what it puts into the record. -/
abbrev Draft (σ : Type) := List (String × (σ → σ))

/-- What a record looks like. A closed one refuses fields that it does not know, an open one skips
them. -/
structure Shape (σ : Type) where
  title : String
  fields : List (Field σ)
  blank : σ
  isClosed : Bool := false

namespace Shape

variable {σ : Type}

def elements (n : Nat) : String := toString n ++ if n = 1 then " element" else " elements"

def names (shape : Shape σ) : List String := shape.fields.map Field.name

def wholeLength (shape : Shape σ) : String :=
  shape.title ++ " with " ++ elements shape.fields.length

def fieldOf (shape : Shape σ) (draft : Draft σ) (key : String) :
    Except Unsuitable (Option (Field σ)) :=
  match shape.fields.find? (·.name = key) with
  | some f => if (draft.lookup key).isSome then .error (.repeatedField key) else .ok (some f)
  | none => if shape.isClosed then .error (.unknownField key shape.names) else .ok none

/-- Fills in the given fields, each of which must be given unless it is optional. -/
def completeFrom (draft : Draft σ) : List (Field σ) → σ → Except Unsuitable σ
  | [], s => .ok s
  | f :: fs, s =>
    match draft.lookup f.name with
    | some put => completeFrom draft fs (put s)
    | none =>
      if f.isRequired then .error (.missingField f.name) else completeFrom draft fs s

def complete (shape : Shape σ) (draft : Draft σ) : Except Unsuitable σ :=
  completeFrom draft shape.fields shape.blank

def member (shape : Shape σ) (depth : Nat) (draft : Draft σ) (key : String) :
    Scan (Draft σ) := do
  match ← accept (shape.fieldOf draft key) with
  | some f =>
    colon
    let put ← f.fill.fromText depth
    pure ((key, put) :: draft)
  | none =>
    colon
    skip
    pure draft

/-- The list form: the fields in their order, from the one with the given number on. -/
def inOrder (shape : Shape σ) (depth : Nat) : Nat → List (Field σ) → Bool → σ → Scan σ
  | _, [], _, s => pure s
  | i, f :: fs, isFirst, s => do
    if ← nextItem isFirst then
      let put ← f.fill.fromText depth
      inOrder shape depth (i + 1) fs false (put s)
    else if f.isRequired then reject (.wrongLength i shape.wholeLength)
    else inOrder shape depth (i + 1) fs isFirst s

def memberOfValue (shape : Shape σ) (draft : Draft σ) (m : String × Json) :
    Except Unsuitable (Draft σ) := do
  match ← shape.fieldOf draft m.1 with
  | some f =>
    let put ← f.fill.fromValue m.2
    pure ((m.1, put) :: draft)
  | none => pure draft

/-- A list with values left over is refused at its end. -/
def inOrderOfValue (shape : Shape σ) : Nat → List (Field σ) → List Json → σ → Except Unsuitable σ
  | _, [], [], s => pure s
  | i, [], vs, _ =>
    .error (.wrongLength (i + vs.length) (elements i ++ " in sequence"))
  | i, f :: fs, [], s =>
    if f.isRequired then .error (.wrongLength i shape.wholeLength)
    else inOrderOfValue shape i fs [] s
  | i, f :: fs, v :: vs, s => do
    let put ← f.fill.fromValue v
    inOrderOfValue shape (i + 1) fs vs (put s)

def reader (shape : Shape σ) : Reader σ where
  fromText depth :=
    valueOf
      (nested (fun depth => shape.inOrder depth 0 shape.fields true shape.blank) endList depth)
      (nested (fun depth => do
        accept (shape.complete (← membersToEnd (shape.member depth) [])))
        endObject depth)
      (wrongType shape.title)
  fromValue
    | .array vs => shape.inOrderOfValue 0 shape.fields vs shape.blank
    | .object ms => do shape.complete (← ms.foldlM shape.memberOfValue [])
    | v => .error (.wrongType (found v) shape.title)

end Shape

/-- One of several shapes, told by a tag: a member of its own in the object form, the first item
in the list form. The tag may stand anywhere among the members, so the rest is read as a value
first, and the shape from that value. -/
structure Tagged (α : Type) where
  title : String
  tag : String
  variants : List (String × Reader α)

namespace Tagged

variable {α : Type}

def keyword (t : Tagged α) : Reader (Reader α) := Reader.keyword "variant identifier" t.variants

structure Parts (α : Type) where
  payload : Option (Reader α) := none
  others : List (String × Json) := []

def Parts.complete (t : Tagged α) (parts : Parts α) : Except Unsuitable (Reader α × Json) :=
  match parts.payload with
  | some payload => .ok (payload, .object parts.others)
  | none => .error (.missingField t.tag)

def member (t : Tagged α) (depth : Nat) (parts : Parts α) (key : String) : Scan (Parts α) := do
  if key = t.tag then
    if parts.payload.isSome then reject (.repeatedField t.tag)
    else
      colon
      let payload ← t.keyword.fromText depth
      pure { parts with payload }
  else
    colon
    let v ← read depth
    pure { parts with others := parts.others ++ [(key, v)] }

def listForm (t : Tagged α) (depth : Nat) : Scan (Reader α × Json) := do
  if ← nextItem true then
    let payload ← t.keyword.fromText depth
    let vs ← itemsToEnd (read depth) false
    pure (payload, .array vs)
  else reject (.missingField t.tag)

def memberOfValue (t : Tagged α) (parts : Parts α) (m : String × Json) :
    Except Unsuitable (Parts α) :=
  if m.1 = t.tag then
    if parts.payload.isSome then .error (.repeatedField t.tag)
    else do
      let payload ← t.keyword.fromValue m.2
      pure { parts with payload }
  else .ok { parts with others := parts.others ++ [m] }

def variantOfText (t : Tagged α) (depth : Nat) : Scan (Reader α × Json) :=
  valueOf
    (nested t.listForm endList depth)
    (nested (fun depth => do accept (Parts.complete t (← membersToEnd (t.member depth) {})))
      endObject depth)
    (wrongType t.title)

def variantOfValue (t : Tagged α) : Json → Except Unsuitable (Reader α × Json)
  | .array [] => .error (.missingField t.tag)
  | .array (v :: vs) => do pure (← t.keyword.fromValue v, .array vs)
  | .object ms => do Parts.complete t (← ms.foldlM t.memberOfValue {})
  | v => .error (.wrongType (found v) t.title)

def reader (t : Tagged α) : Reader α where
  fromText depth := do
    let (payload, v) ← t.variantOfText depth
    accept (payload.fromValue v)
  fromValue v := do
    let (payload, rest) ← t.variantOfValue v
    payload.fromValue rest

end Tagged

def depthLimit : Nat := 127

/-- Reads a value with nothing but white space behind it. -/
def Reader.toEnd {α : Type} (r : Reader α) : Scan α := do
  let a ← r.fromText depthLimit
  endText
  pure a

def Reader.parse {α : Type} (r : Reader α) (source : String) : Except Error α :=
  match r.toEnd source.toList with
  | .ok a _ => .ok a
  | .error f _ => .error (f.locate source.toList)

end SceneScript.Json
