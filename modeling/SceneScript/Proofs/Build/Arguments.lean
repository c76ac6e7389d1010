import SceneScript.Build.Program

/-!
The arguments of builder calls: what they mean, and what is wrong with them in the order in which
it is met. Making a line or a text gives what is meant, or the first of these faults.
-/
namespace SceneScript

def nameFaults (name : String) : List InvalidInput :=
  if name = "" then [.empty .speakerName]
  else if name = imageKey then [.reservedName]
  else []

def emptyFaults (value : String) (argument : Argument) : List InvalidInput :=
  if value = "" then [.empty argument] else []

def TextPiece.meant : TextPiece → String
  | .literal s => s
  | .speaker name => name

def TextPiece.faults : TextPiece → List InvalidInput
  | .literal _ => []
  | .speaker name => nameFaults name

def meantText (pieces : List TextPiece) : String := String.join (pieces.map TextPiece.meant)

/-- The names in a text come before the text that they are part of. -/
def textFaults (pieces : List TextPiece) : List InvalidInput :=
  pieces.flatMap TextPiece.faults ++ emptyFaults (meantText pieces) .dialogueText

namespace LineCall

def faults (call : LineCall) : List InvalidInput :=
  call.speaker.toList.flatMap nameFaults ++ textFaults call.text

/-- The empty image name means that there is no image. -/
def meant (call : LineCall) : Line :=
  ⟨call.speaker.getD "narrator", meantText call.text, call.image.filter (· ≠ "")⟩

end LineCall

/-- The first fault, or the value when there is none. -/
def verdict {α : Type} (faults : List InvalidInput) (a : α) : Except InvalidInput α :=
  match faults with
  | [] => .ok a
  | fault :: _ => .error fault

/-- The faults of one argument come before those of the arguments that are looked at after it. -/
theorem verdict_bind {α β : Type} (faults others : List InvalidInput) {a : α} {b : β}
    {next : α → Except InvalidInput β} (h : next a = verdict others b) :
    (verdict faults a >>= next) = verdict (faults ++ others) b := by
  cases faults with
  | nil => exact h
  | cons fault faults => rfl

theorem verdict_map {α β : Type} (faults : List InvalidInput) (a : α) (f : α → β) :
    f <$> verdict faults a = verdict faults (f a) := by
  cases faults <;> rfl

/-- An empty name is refused before it is asked whether the name is reserved. -/
theorem ofName_eq_verdict (name : String) :
    Speaker.ofName name = verdict (nameFaults name) ⟨name⟩ := by
  unfold Speaker.ofName nameFaults
  split
  · rfl
  · split <;> rfl

theorem requireNonEmpty_eq_verdict (value : String) (argument : Argument) :
    requireNonEmpty value argument = verdict (emptyFaults value argument) () := by
  unfold requireNonEmpty emptyFaults
  split <;> rfl

theorem TextPiece.text_eq_verdict (piece : TextPiece) :
    piece.text = verdict piece.faults piece.meant := by
  cases piece with
  | literal s => rfl
  | speaker name =>
    change Speaker.name <$> Speaker.ofName name = _
    rw [ofName_eq_verdict, verdict_map]
    rfl

theorem mapM_text_eq_verdict (pieces : List TextPiece) :
    pieces.mapM TextPiece.text =
      verdict (pieces.flatMap TextPiece.faults) (pieces.map TextPiece.meant) := by
  induction pieces with
  | nil => rfl
  | cons piece pieces ih =>
    rw [List.mapM_cons, piece.text_eq_verdict, ih, List.flatMap_cons, List.map_cons]
    refine verdict_bind _ _ ?_
    exact verdict_map _ _ _

/-- A text is refused for its first speaker who cannot be one, and is otherwise its pieces put
together. -/
theorem textOf_eq_verdict (pieces : List TextPiece) :
    textOf pieces = verdict (pieces.flatMap TextPiece.faults) (meantText pieces) := by
  rw [textOf, mapM_text_eq_verdict, verdict_map]
  rfl

/-- Only the text can be refused here: the empty image name stands for no image. -/
theorem speakWithImage_eq_verdict (speaker : Speaker) (text image : String) :
    speaker.speakWithImage text image = verdict (emptyFaults text .dialogueText)
      ⟨speaker.name, text, if image = "" then none else some image⟩ := by
  unfold Speaker.speakWithImage emptyFaults
  split <;> rfl

namespace LineCall

def maker (call : LineCall) : Except InvalidInput Speaker :=
  match call.speaker with
  | none => .ok Speaker.narrator
  | some name => Speaker.ofName name

theorem line_eq (call : LineCall) :
    call.line = call.maker >>= fun speaker => textOf call.text >>= fun text =>
      speaker.speakWithImage text (call.image.getD "") := by
  unfold line maker
  cases call.speaker <;> cases call.image <;> rfl

theorem maker_eq_verdict (call : LineCall) :
    call.maker =
      verdict (call.speaker.toList.flatMap nameFaults) ⟨call.speaker.getD "narrator"⟩ := by
  unfold maker
  cases call.speaker with
  | none => rfl
  | some name => simp [ofName_eq_verdict]

/-- A line is refused for its speaker first, then for the speakers in its text, then for an empty
text. -/
theorem line_eq_verdict (call : LineCall) : call.line = verdict call.faults call.meant := by
  rw [line_eq, maker_eq_verdict, faults, textFaults]
  refine verdict_bind _ _ ?_
  rw [textOf_eq_verdict]
  refine verdict_bind _ _ ?_
  rw [speakWithImage_eq_verdict, meant]
  congr 2
  cases call.image with
  | none => rfl
  | some image => by_cases himage : image = "" <;> simp [himage, Option.filter]

end LineCall

end SceneScript
