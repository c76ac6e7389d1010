import SceneScript.Ron.Cursor

/-!
Reading identifiers, plain and raw ones, and fixed words.
-/
namespace SceneScript.Ron

/-- Whether the text goes on with a fixed word that ends there. -/
def startsWithWord (word : List Char) (rest : List Char) : Bool :=
  word.isPrefixOf rest && !((rest.drop word.length).head?.any isOther)

def consumeWord (word : String) : Scan Bool := fun cursor =>
  if startsWithWord word.toList cursor.rest then .ok true (cursor.advance word.toList.length)
  else .ok false cursor

/-- The identifier that starts with these characters. A plain one may not go on with what only a
raw one can hold. -/
def plainIdentifier : Scan String := fun cursor =>
  let plain := cursor.rest.takeWhile isOther
  let raw := cursor.rest.takeWhile isRaw
  if plain.length < raw.length then .error (.suggestRaw (String.ofList raw)) cursor
  else .ok (String.ofList plain) (cursor.advance plain.length)

/-- Reads an identifier. Nothing is read where there is none. -/
def identifier : Scan String := fun cursor =>
  match cursor.rest with
  | [] => .error .endOfText cursor
  | c :: tail =>
    if isFirst c then
      if c = 'r' then
        match tail with
        | [] => .error .endOfText cursor
        | '"' :: _ => .error .expectedIdentifier cursor
        | '#' :: behind =>
          if behind.head?.any isRaw then
            let raw := behind.takeWhile isRaw
            .ok (String.ofList raw) (cursor.advance (2 + raw.length))
          else .error .expectedIdentifier cursor
        | _ => plainIdentifier cursor
      else plainIdentifier cursor
    else if isRaw c then
      .error (.suggestRaw (String.ofList (cursor.rest.takeWhile isRaw))) cursor
    else .error .expectedIdentifier cursor

end SceneScript.Ron
