import SceneScript.Json.NumberLiteral
import SceneScript.Json.StringLiteral

/-!
Reading values. Lists and objects are read by what reads one item or one member, so that the same
loops serve the reader of arbitrary values and the readers of particular shapes. `read` builds a
value and opens only so many brackets inside each other; `skip` passes over a value of any depth
and of any size of numbers.
-/
namespace SceneScript.Json

open Scan

variable {α σ : Type}

/-- Whether a further item follows. The comma between two items is read. -/
def nextItem (isFirst : Bool) : Scan Bool := fun rest =>
  match skipBlanks rest with
  | [] => failAtNext .endInList []
  | c :: tail =>
    if c = ']' then .ok false (c :: tail)
    else if isFirst then .ok true (c :: tail)
    else if c = ',' then
      match skipBlanks tail with
      | [] => failAtNext .endInValue []
      | d :: tail => if d = ']' then failAtNext .trailingComma (d :: tail) else .ok true (d :: tail)
    else failAtNext .expectedListEnd (c :: tail)

def nextKey (isFirst : Bool) : Scan (Option String) := fun rest =>
  match skipBlanks rest with
  | [] => failAtNext .endInObject []
  | c :: tail =>
    if c = '}' then .ok none (c :: tail)
    else if isFirst then
      if c = '"' then (some <$> readString) tail else failAtNext .keyNotString (c :: tail)
    else if c = ',' then
      match skipBlanks tail with
      | [] => failAtNext .endInValue []
      | d :: tail =>
        if d = '"' then (some <$> readString) tail
        else if d = '}' then failAtNext .trailingComma (d :: tail)
        else failAtNext .keyNotString (d :: tail)
    else failAtNext .expectedObjectEnd (c :: tail)

/-- The items up to the end of a list, which is not read. The first argument bounds the number of
rounds. -/
def items (item : Scan α) : Nat → Bool → Scan (List α)
  | 0, _ => failHere .endInList
  | fuel + 1, isFirst => do
    if ← nextItem isFirst then
      let a ← item
      let as ← items item fuel false
      pure (a :: as)
    else pure []

def members (member : σ → String → Scan σ) : Nat → Bool → σ → Scan σ
  | 0, _, _ => failHere .endInObject
  | fuel + 1, isFirst, s => do
    match ← nextKey isFirst with
    | some key =>
      let t ← member s key
      members member fuel false t
    | none => pure s

/-- More rounds than there are characters are never needed. -/
def itemsToEnd (item : Scan α) (isFirst : Bool) : Scan (List α) := fun rest =>
  items item (rest.length + 1) isFirst rest

def membersToEnd (member : σ → String → Scan σ) (s : σ) : Scan σ := fun rest =>
  members member (rest.length + 1) true s rest

def scalar : Scan Json := fun rest =>
  match rest with
  | [] => failAtNext .endInValue []
  | c :: tail =>
    if c = 'n' then (do word ['u', 'l', 'l']; pure Json.null) tail
    else if c = 't' then (do word ['r', 'u', 'e']; pure (Json.bool true)) tail
    else if c = 'f' then (do word ['a', 'l', 's', 'e']; pure (Json.bool false)) tail
    else if c = '-' then (.number <$> readNumber true) tail
    else if c.isDigit then (.number <$> readNumber false) rest
    else if c = '"' then (.string <$> readString) tail
    else failAtNext .expectedValue rest

/-- Reads whatever value stands next, from behind its bracket if it has one. -/
def valueOf (list object scalar : Scan α) : Scan α := placed fun rest =>
  match skipBlanks rest with
  | [] => failAtNext .endInValue []
  | c :: tail =>
    if c = '[' then list (c :: tail)
    else if c = '{' then object (c :: tail)
    else scalar (c :: tail)

/-- Reads the bracket that stands next, what is inside, and the end. -/
def bracketed (inside : Scan α) (close : Scan Unit) : Scan α := fun rest =>
  closedBy inside close rest.tail

/-- The same, where only so many brackets may still be opened inside each other. -/
def nested (inside : Nat → Scan α) (close : Scan Unit) : Nat → Scan α
  | 0 => failAtNext .tooDeep
  | depth + 1 => bracketed (inside depth) close

def read : Nat → Scan Json
  | 0 => valueOf (failAtNext .tooDeep) (failAtNext .tooDeep) scalar
  | depth + 1 =>
    let member (ms : List (String × Json)) (key : String) : Scan (List (String × Json)) := do
      colon
      let v ← read depth
      pure (ms ++ [(key, v)])
    valueOf
      (bracketed (.array <$> itemsToEnd (read depth) true) endList)
      (bracketed (.object <$> membersToEnd member []) endObject)
      scalar

def skipItems (item : Scan Unit) : Nat → Bool → Scan Unit
  | 0, _ => failHere .endInList
  | fuel + 1, isFirst => fun rest =>
    match skipBlanks rest with
    | [] => failAtNext .endInList []
    | c :: tail =>
      if c = ']' then .ok () tail
      else if isFirst then (do item; skipItems item fuel false) (c :: tail)
      else if c = ',' then (do item; skipItems item fuel false) tail
      else failAtNext .expectedListEnd (c :: tail)

def skipKey : Scan Unit := fun rest =>
  match skipBlanks rest with
  | [] => failAtNext .endInObject []
  | c :: tail =>
    if c = '"' then (do skipString; colon) tail else failAtNext .keyNotString (c :: tail)

def skipMembers (value : Scan Unit) : Nat → Bool → Scan Unit
  | 0, _ => failHere .endInObject
  | fuel + 1, isFirst => fun rest =>
    match skipBlanks rest with
    | [] => failAtNext .endInObject []
    | c :: tail =>
      if c = '}' then .ok () tail
      else if isFirst then (do skipKey; value; skipMembers value fuel false) (c :: tail)
      else if c = ',' then (do skipKey; value; skipMembers value fuel false) tail
      else failAtNext .expectedObjectEnd (c :: tail)

/-- Passes over a value. The argument bounds the rounds of every loop and the depth alike. -/
def skipValue : Nat → Scan Unit
  | 0 => failHere .endInValue
  | fuel + 1 => fun rest =>
    match skipBlanks rest with
    | [] => failAtNext .endInValue []
    | c :: tail =>
      if c = '[' then skipItems (skipValue fuel) fuel true tail
      else if c = '{' then skipMembers (skipValue fuel) fuel true tail
      else if c = '"' then skipString tail
      else if c = 'n' then word ['u', 'l', 'l'] tail
      else if c = 't' then word ['r', 'u', 'e'] tail
      else if c = 'f' then word ['a', 'l', 's', 'e'] tail
      else if c = '-' then skipNumber tail
      else if c.isDigit then skipNumber (c :: tail)
      else failAtNext .expectedValue (c :: tail)

def skip : Scan Unit := fun rest => skipValue (rest.length + 1) rest

end SceneScript.Json
