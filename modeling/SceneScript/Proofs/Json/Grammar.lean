import Mathlib.Data.Rat.Defs
import Mathlib.Algebra.Order.Field.Rat
import SceneScript.Json.Render

/-!
The grammar of JSON texts, said without a reader. A value is related to every text that spells it:
white space may stand around each token, a character of a string may be spelled in several ways,
and the two halves of a surrogate pair stand together. Which literals spell a number is left open,
so that one grammar serves numbers read exactly and numbers merely bounded.
-/
namespace SceneScript.Json

def AllBlank (cs : List Char) : Prop := ∀ c ∈ cs, isBlank c

def Padded (spelled : List Char → Prop) (cs : List Char) : Prop :=
  ∃ before inside after, AllBlank before ∧ spelled inside ∧ AllBlank after ∧
    cs = before ++ inside ++ after

/-- The short escapes: the letter behind the backslash, and what it stands for. -/
def shortForms : List (Char × Char) :=
  [('"', '"'), ('\\', '\\'), ('/', '/'), ('b', Char.ofNat 8), ('f', Char.ofNat 12), ('n', '\n'),
    ('r', '\r'), ('t', '\t')]

/-- Four hexadecimal digits of either case, with their value. -/
inductive SpellsUnit : Nat → List Char → Prop
  | digits {a b c d : Char} {i j k l : Nat}
      (ha : Text.hexValue a = some i) (hb : Text.hexValue b = some j)
      (hc : Text.hexValue c = some k) (hd : Text.hexValue d = some l) :
      SpellsUnit (((i * 16 + j) * 16 + k) * 16 + l) [a, b, c, d]

def IsLeading (value : Nat) : Prop := 0xD800 ≤ value ∧ value ≤ 0xDBFF

def IsTrailing (value : Nat) : Prop := 0xDC00 ≤ value ∧ value ≤ 0xDFFF

/-- One character inside quotes: as it is, by a short escape, by its number, or by the two halves
of a surrogate pair. -/
inductive SpellsChar : Char → List Char → Prop
  | plain {c : Char} (hcontrol : 32 ≤ c.toNat) (hquote : c ≠ '"') (hslash : c ≠ '\\') :
      SpellsChar c [c]
  | short {letter c : Char} (h : (letter, c) ∈ shortForms) : SpellsChar c ['\\', letter]
  | unit {value : Nat} {digits : List Char} (h : SpellsUnit value digits)
      (hleading : ¬ IsLeading value) (htrailing : ¬ IsTrailing value) :
      SpellsChar (Char.ofNat value) ('\\' :: 'u' :: digits)
  | pair {leading trailing : Nat} {first second : List Char}
      (hfirst : SpellsUnit leading first) (hleading : IsLeading leading)
      (hsecond : SpellsUnit trailing second) (htrailing : IsTrailing trailing) :
      SpellsChar (Char.ofNat ((leading - 0xD800) * 0x400 + (trailing - 0xDC00) + 0x10000))
        ('\\' :: 'u' :: first ++ '\\' :: 'u' :: second)

inductive SpellsChars : List Char → List Char → Prop
  | nil : SpellsChars [] []
  | cons {c : Char} {cs first others : List Char} (h : SpellsChar c first)
      (hs : SpellsChars cs others) : SpellsChars (c :: cs) (first ++ others)

def SpellsString (s : String) (cs : List Char) : Prop :=
  ∃ inside, SpellsChars s.toList inside ∧ cs = '"' :: inside ++ ['"']

structure Exponent where
  letter : Char
  sign : Option Char
  digits : List Char
  letter_eq : letter = 'e' ∨ letter = 'E'
  sign_eq : sign = none ∨ sign = some '+' ∨ sign = some '-'
  digits_ne_nil : digits ≠ []
  digits_isDigit : ∀ c ∈ digits, c.isDigit

/-- A number as it is spelled. There are no digits behind the point when there is no point. -/
structure NumberLiteral where
  isNegative : Bool
  whole : List Char
  fraction : List Char
  exponent : Option Exponent
  whole_ne_nil : whole ≠ []
  whole_isDigit : ∀ c ∈ whole, c.isDigit
  no_leading_zero : whole = ['0'] ∨ whole.head? ≠ some '0'
  fraction_isDigit : ∀ c ∈ fraction, c.isDigit

def digitsValue (digits : List Char) : Nat :=
  digits.foldl (fun n d => n * 10 + Text.digitValue d) 0

namespace Exponent

def isDown (e : Exponent) : Bool := e.sign = some '-'

def chars (e : Exponent) : List Char := e.letter :: e.sign.toList ++ e.digits

def value (e : Exponent) : Int := if e.isDown then -digitsValue e.digits else digitsValue e.digits

end Exponent

namespace NumberLiteral

def exponentChars (n : NumberLiteral) : List Char := (n.exponent.map Exponent.chars).getD []

def unsigned (n : NumberLiteral) : List Char :=
  n.whole ++ (if n.fraction = [] then [] else '.' :: n.fraction) ++ n.exponentChars

def chars (n : NumberLiteral) : List Char :=
  if n.isNegative then '-' :: n.unsigned else n.unsigned

def magnitude (n : NumberLiteral) : ℚ :=
  digitsValue (n.whole ++ n.fraction) *
    (10 : ℚ) ^ ((n.exponent.map Exponent.value).getD 0 - n.fraction.length)

end NumberLiteral

section

variable (numeral : Number → List Char → Prop)

mutual

def Spells : Json → List Char → Prop
  | .null, cs => cs = "null".toList
  | .bool b, cs => cs = boolLiteral b
  | .number n, cs => numeral n cs
  | .string s, cs => SpellsString s cs
  | .array [], cs => ∃ blanks, AllBlank blanks ∧ cs = '[' :: blanks ++ [']']
  | .array (v :: vs), cs =>
    ∃ first others, Padded (Spells v) first ∧ SpellsItems vs others ∧ cs = '[' :: first ++ others
  | .object [], cs => ∃ blanks, AllBlank blanks ∧ cs = '{' :: blanks ++ ['}']
  | .object ((k, v) :: ms), cs =>
    ∃ key value others, Padded (SpellsString k) key ∧ Padded (Spells v) value ∧
      SpellsMembers ms others ∧ cs = '{' :: key ++ ':' :: value ++ others

def SpellsItems : List Json → List Char → Prop
  | [], cs => cs = [']']
  | v :: vs, cs =>
    ∃ first others, Padded (Spells v) first ∧ SpellsItems vs others ∧ cs = ',' :: first ++ others

def SpellsMembers : List (String × Json) → List Char → Prop
  | [], cs => cs = ['}']
  | (k, v) :: ms, cs =>
    ∃ key value others, Padded (SpellsString k) key ∧ Padded (Spells v) value ∧
      SpellsMembers ms others ∧ cs = ',' :: key ++ ':' :: value ++ others

end

end

mutual

/-- How many lists and objects are open inside each other at the most. -/
def depth : Json → Nat
  | .array vs => itemsDepth vs + 1
  | .object ms => membersDepth ms + 1
  | _ => 0

def itemsDepth : List Json → Nat
  | [] => 0
  | v :: vs => max (depth v) (itemsDepth vs)

def membersDepth : List (String × Json) → Nat
  | [] => 0
  | (_, v) :: ms => max (depth v) (membersDepth ms)

end

theorem depth_le_itemsDepth {v : Json} {vs : List Json} (h : v ∈ vs) :
    v.depth ≤ itemsDepth vs := by
  induction vs with
  | nil => simp at h
  | cons w ws ih =>
    simp only [itemsDepth]
    rcases List.mem_cons.mp h with rfl | h
    · exact le_max_left _ _
    · exact le_trans (ih h) (le_max_right _ _)

theorem depth_le_membersDepth {m : String × Json} {ms : List (String × Json)} (h : m ∈ ms) :
    m.2.depth ≤ membersDepth ms := by
  induction ms with
  | nil => simp at h
  | cons n ns ih =>
    simp only [membersDepth]
    rcases List.mem_cons.mp h with rfl | h
    · exact le_max_left _ _
    · exact le_trans (ih h) (le_max_right _ _)

/-- A list leaves one bracket less to its items. -/
theorem depth_le_of_mem_array {v : Json} {vs : List Json} {bound : Nat} (hv : v ∈ vs)
    (h : (Json.array vs).depth ≤ bound + 1) : v.depth ≤ bound := by
  have hitems := depth_le_itemsDepth hv
  simp only [Json.depth] at h
  omega

theorem depth_le_of_mem_object {m : String × Json} {ms : List (String × Json)} {bound : Nat}
    (hm : m ∈ ms) (h : (Json.object ms).depth ≤ bound + 1) : m.2.depth ≤ bound := by
  have hmembers := depth_le_membersDepth hm
  simp only [Json.depth] at h
  omega

end SceneScript.Json
