/-!
The characters of identifiers, and identifiers as they are shown. A plain one starts with a letter
or an underscore and goes on with letters, digits and underscores; a raw one, marked by `r#`, may
also hold points, signs and hyphens. All of these are ASCII characters.
-/
namespace SceneScript.Ron

def isFirst (c : Char) : Bool := c.isAlpha || c = '_'

def isOther (c : Char) : Bool := c.isAlphanum || c = '_'

def isRaw (c : Char) : Bool := isOther c || c = '.' || c = '+' || c = '-'

def isPlainIdentifier : List Char → Bool
  | [] => false
  | c :: cs => isFirst c && cs.all isOther

/-- The identifier between backticks, marked as raw unless it can be written as a plain one. -/
def shownIdentifier (identifier : String) : String :=
  if isPlainIdentifier identifier.toList then "`" ++ identifier ++ "`"
  else "`r#" ++ identifier ++ "`"

end SceneScript.Ron
