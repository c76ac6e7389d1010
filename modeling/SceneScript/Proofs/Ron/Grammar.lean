import Mathlib.Data.List.Infix
import SceneScript.Ron.Cursor
import SceneScript.Text.Digits

/-!
The grammar of object notation, said without a reader, as far as it is used to write plain values:
the layout around tokens, identifiers, and values without brackets. Comments nest, identifiers can
be marked as raw, the digits of an integer can be grouped by underscores, and strings stand between
quotes or between quotes and number signs.
-/
namespace SceneScript.Ron

/-- From inside so many block comments up to the end of the outermost. -/
inductive ClosesComments : Nat → List Char → Prop
  | nil : ClosesComments 0 []
  | opening {level : Nat} {cs : List Char} (h : ClosesComments (level + 2) cs) :
      ClosesComments (level + 1) ('/' :: '*' :: cs)
  | closing {level : Nat} {cs : List Char} (h : ClosesComments level cs) :
      ClosesComments (level + 1) ('*' :: '/' :: cs)
  | other {level : Nat} {c : Char} {cs : List Char} (hopening : ¬ ['/', '*'] <+: c :: cs)
      (hclosing : ¬ ['*', '/'] <+: c :: cs) (h : ClosesComments (level + 1) cs) :
      ClosesComments (level + 1) (c :: cs)

inductive Layout : List Char → Prop
  | nil : Layout []
  | blank {c : Char} {cs : List Char} (hc : isBlank c) (h : Layout cs) : Layout (c :: cs)
  | lineComment {text cs : List Char} (htext : '\n' ∉ text) (h : Layout cs) :
      Layout ('/' :: '/' :: text ++ '\n' :: cs)
  | blockComment {comment cs : List Char} (hcomment : ClosesComments 1 comment) (h : Layout cs) :
      Layout ('/' :: '*' :: comment ++ cs)

/-- Layout up to the end of the whole text, which also ends a line. -/
inductive FinalLayout : List Char → Prop
  | ended {cs : List Char} (h : Layout cs) : FinalLayout cs
  | openLine {cs text : List Char} (h : Layout cs) (htext : '\n' ∉ text) :
      FinalLayout (cs ++ '/' :: '/' :: text)

/-- The spellings of an identifier: as it is, if it is a plain one, or marked as raw. -/
inductive SpellsIdentifier (name : String) : List Char → Prop
  | plain (h : isPlainIdentifier name.toList) : SpellsIdentifier name name.toList
  | raw (hne : name.toList ≠ []) (h : ∀ c ∈ name.toList, isRaw c) :
      SpellsIdentifier name ('r' :: '#' :: name.toList)

inductive Scalar where
  | flag (b : Bool)
  | integer (n : Int)
  | text (s : String)
  deriving DecidableEq

def IsSign (sign : List Char) : Prop := sign = [] ∨ sign = ['+'] ∨ sign = ['-']

def numeralFrom (n : Nat) (digits : List Char) : Nat :=
  digits.foldl (fun n c => if c = '_' then n else n * 10 + Text.digitValue c) n

/-- The spellings of a value. Grouped digits are for numbers of 63 bits. -/
inductive SpellsScalar : Scalar → List Char → Prop
  | yes : SpellsScalar (.flag true) ['t', 'r', 'u', 'e']
  | no : SpellsScalar (.flag false) ['f', 'a', 'l', 's', 'e']
  | integer {sign digits : List Char} (hsign : IsSign sign) (hlead : digits.head?.any Char.isDigit)
      (hdigits : ∀ c ∈ digits, c.isDigit ∨ c = '_')
      (hgrouped : '_' ∈ digits → numeralFrom 0 digits < Nat.pow 2 63) :
      SpellsScalar (.integer (if sign = ['-'] then -numeralFrom 0 digits else numeralFrom 0 digits))
        (sign ++ digits)
  | text {cs : List Char} (h : ∀ c ∈ cs, c ≠ '"' ∧ c ≠ '\\') :
      SpellsScalar (.text (String.ofList cs)) ('"' :: cs ++ ['"'])
  | rawText {cs : List Char} {signs : Nat} (h : ¬ '"' :: List.replicate signs '#' <:+: cs) :
      SpellsScalar (.text (String.ofList cs))
        ('r' :: List.replicate signs '#' ++ '"' :: cs ++ '"' :: List.replicate signs '#')

/-! What stands behind a token -/

def delimiters : List Char := [' ', '\n', '\t', '\r', '/', ':', ',', '(', ')']

def Delimited (rest : List Char) : Prop := ∃ c cs, rest = c :: cs ∧ c ∈ delimiters

def Bare (cs : List Char) : Prop := ∀ c ∈ cs.head?, isBlank c = false ∧ c ≠ '/'

end SceneScript.Ron
