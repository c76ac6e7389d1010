import SceneScript.Text.Digits
import SceneScript.Text.Extending
import SceneScript.Text.Unprintable

/-!
Strings as they are shown inside messages and descriptions: between double quotes, with a
backslash before a quote and a backslash, short forms for the usual controls, and by number for
every character that could not be seen or would change its neighbour.
-/
namespace SceneScript.Text

def byNumber (c : Char) : List Char := ['\\', 'u', '{'] ++ hexCode c ++ ['}']

def shownChar (c : Char) : List Char :=
  if c = '"' then ['\\', '"']
  else if c = '\\' then ['\\', '\\']
  else if c = '\n' then ['\\', 'n']
  else if c = '\r' then ['\\', 'r']
  else if c = '\t' then ['\\', 't']
  else if c.toNat = 0 then ['\\', '0']
  else if isExtending c || isUnprintable c then byNumber c
  else [c]

def quoted (s : String) : String :=
  String.ofList ('"' :: s.toList.flatMap shownChar ++ ['"'])

end SceneScript.Text
