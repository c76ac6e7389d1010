import SceneScript.Json.Fault
import SceneScript.Json.StringLiteral

/-!
Writing values: compactly, without any white space, or laid out on lines with two spaces for each
level. Both keep the order of members, and they differ in nothing but white space between tokens.
-/
namespace SceneScript.Json

def boolLiteral (b : Bool) : List Char := (if b then "true" else "false").toList

mutual

def compact : Json → List Char
  | .null => "null".toList
  | .bool b => boolLiteral b
  | .number n => n.text.toList
  | .string s => stringLiteral s
  | .array [] => ['[', ']']
  | .array (v :: vs) => '[' :: compact v ++ compactItems vs
  | .object [] => ['{', '}']
  | .object ((k, v) :: ms) => '{' :: stringLiteral k ++ ':' :: compact v ++ compactMembers ms

def compactItems : List Json → List Char
  | [] => [']']
  | v :: vs => ',' :: compact v ++ compactItems vs

def compactMembers : List (String × Json) → List Char
  | [] => ['}']
  | (k, v) :: ms => ',' :: stringLiteral k ++ ':' :: compact v ++ compactMembers ms

end

def lineBreak (level : Nat) : List Char := '\n' :: List.replicate (2 * level) ' '

mutual

/-- The value as it stands at a level of indentation. -/
def pretty (level : Nat) : Json → List Char
  | .null => "null".toList
  | .bool b => boolLiteral b
  | .number n => n.text.toList
  | .string s => stringLiteral s
  | .array [] => ['[', ']']
  | .array (v :: vs) =>
    '[' :: lineBreak (level + 1) ++ pretty (level + 1) v ++ prettyItems level vs
  | .object [] => ['{', '}']
  | .object ((k, v) :: ms) =>
    '{' :: lineBreak (level + 1) ++ stringLiteral k ++ ':' :: ' ' :: pretty (level + 1) v ++
      prettyMembers level ms

def prettyItems (level : Nat) : List Json → List Char
  | [] => lineBreak level ++ [']']
  | v :: vs => ',' :: lineBreak (level + 1) ++ pretty (level + 1) v ++ prettyItems level vs

def prettyMembers (level : Nat) : List (String × Json) → List Char
  | [] => lineBreak level ++ ['}']
  | (k, v) :: ms =>
    ',' :: lineBreak (level + 1) ++ stringLiteral k ++ ':' :: ' ' :: pretty (level + 1) v ++
      prettyMembers level ms

end

def compactText (v : Json) : String := String.ofList v.compact

def prettyText (v : Json) : String := String.ofList (v.pretty 0)

end SceneScript.Json
