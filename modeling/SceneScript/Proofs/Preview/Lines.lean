import Mathlib.Data.List.Basic
import SceneScript.Preview
import SceneScript.Proofs.Text.Uppercase

/-!
Screenplays line by line. A screenplay is its heading and a group of lines for every part, and the
lines of a branch are its rule and a group for every choice. Which lines there are can be told from
the text as long as no line holds a line feed, and where the groups begin can be told from the
lines: an empty line opens a part and no other line is empty; the line that opens a choice is
indented less than the dialogue under it.
-/
namespace SceneScript.Preview

/-! Lines and groups of lines -/

def joinLines (lines : List (List Char)) : List Char := lines.flatMap (· ++ ['\n'])

theorem joinLines_cons (line : List Char) (lines : List (List Char)) :
    joinLines (line :: lines) = line ++ '\n' :: joinLines lines := by
  simp [joinLines]

theorem joinLines_append (lines lines' : List (List Char)) :
    joinLines (lines ++ lines') = joinLines lines ++ joinLines lines' :=
  List.flatMap_append

/-- Lines without line feeds can be told from the text that they make. -/
theorem joinLines_injective {lines lines' : List (List Char)} (h : ∀ line ∈ lines, '\n' ∉ line)
    (h' : ∀ line ∈ lines', '\n' ∉ line) (heq : joinLines lines = joinLines lines') :
    lines = lines' := by
  induction lines generalizing lines' with
  | nil =>
    cases lines' with
    | nil => rfl
    | cons line lines' => simp [joinLines] at heq
  | cons line lines ih =>
    cases lines' with
    | nil => simp [joinLines] at heq
    | cons line' lines' =>
      obtain ⟨hline, hlines⟩ := List.forall_mem_cons.mp h
      obtain ⟨hline', hlines'⟩ := List.forall_mem_cons.mp h'
      rw [joinLines_cons, joinLines_cons] at heq
      have hsplit : line = line' ∧ joinLines lines = joinLines lines' := by
        rcases List.append_eq_append_iff.mp heq with ⟨more, hmore, hrest⟩ | ⟨more, hmore, hrest⟩
        · cases more with
          | nil => simpa [hmore] using hrest
          | cons c more => simp_all
        · cases more with
          | nil => simpa [hmore, eq_comm] using hrest
          | cons c more => simp_all
      rw [hsplit.1, ih hlines hlines' hsplit.2]

/-- The line that opens a part or a choice, and the lines under it. -/
abbrev Group := List Char × List (List Char)

def groupLines (groups : List Group) : List (List Char) := groups.flatMap fun g => g.1 :: g.2

/-- Of all the lines of a group only the first one is of the kind that opens groups. -/
def Group.OpenedBy (opens : List Char → Prop) (g : Group) : Prop :=
  opens g.1 ∧ ∀ line ∈ g.2, ¬ opens line

/-- Behind the lines under an opening line the next one opens, or there is none. -/
private theorem eq_of_append_groupLines {opens : List Char → Prop} {ls ls' : List (List Char)}
    {gs gs' : List Group} (hls : ∀ line ∈ ls, ¬ opens line) (hls' : ∀ line ∈ ls', ¬ opens line)
    (hgs : ∀ g ∈ gs, Group.OpenedBy opens g) (hgs' : ∀ g ∈ gs', Group.OpenedBy opens g)
    (heq : ls ++ groupLines gs = ls' ++ groupLines gs') :
    ls = ls' ∧ groupLines gs = groupLines gs' := by
  -- A line left over on one side would be the opening line of a group on the other side.
  have hnone {more rest : List (List Char)} {hs : List Group}
      (hmore : ∀ line ∈ more, ¬ opens line) (hhs : ∀ g ∈ hs, Group.OpenedBy opens g)
      (h : groupLines hs = more ++ rest) : more = [] := by
    cases more with
    | nil => rfl
    | cons line more =>
      cases hs with
      | nil => simp [groupLines] at h
      | cons g hs =>
        obtain rfl : g.1 = line := by
          simp only [groupLines, List.flatMap_cons, List.cons_append, List.cons.injEq] at h
          exact h.1
        exact absurd (hhs g (List.mem_cons_self ..)).1 (hmore _ (List.mem_cons_self ..))
  rcases List.append_eq_append_iff.mp heq with ⟨more, rfl, hrest⟩ | ⟨more, rfl, hrest⟩
  · obtain rfl := hnone (fun line hline => hls' line (List.mem_append_right _ hline)) hgs hrest
    simpa using hrest
  · obtain rfl := hnone (fun line hline => hls line (List.mem_append_right _ hline)) hgs' hrest
    simpa [eq_comm] using hrest

/-- Where groups begin can be told from their lines. -/
theorem groupLines_injective {opens : List Char → Prop} {gs gs' : List Group}
    (hgs : ∀ g ∈ gs, Group.OpenedBy opens g) (hgs' : ∀ g ∈ gs', Group.OpenedBy opens g)
    (heq : groupLines gs = groupLines gs') : gs = gs' := by
  induction gs generalizing gs' with
  | nil =>
    cases gs' with
    | nil => rfl
    | cons g gs' => simp [groupLines] at heq
  | cons g gs ih =>
    cases gs' with
    | nil => simp [groupLines] at heq
    | cons g' gs' =>
      obtain ⟨hg, hgs⟩ := List.forall_mem_cons.mp hgs
      obtain ⟨hg', hgs'⟩ := List.forall_mem_cons.mp hgs'
      have hlines : g.1 = g'.1 ∧ g.2 ++ groupLines gs = g'.2 ++ groupLines gs' := by
        simpa [groupLines] using heq
      obtain ⟨hunder, hrest⟩ := eq_of_append_groupLines hg.2 hg'.2 hgs hgs' hlines.2
      rw [ih hgs hgs' hrest, Prod.ext hlines.1 hunder]

/-! The lines of a screenplay -/

def saidChars (line : Line) : List Char :=
  ' ' :: line.text.toList ++
    (match line.image with
      | some image => ' ' :: '[' :: image.toList ++ [']']
      | none => [])

def spokenLine (indent : String) (line : Line) : List Char :=
  indent.toList ++ (Text.uppercase line.speaker).toList ++ ':' :: saidChars line

theorem toList_lineText (indent : String) (line : Line) :
    (lineText indent line).toList = spokenLine indent line ++ ['\n'] := by
  unfold lineText spokenLine saidChars
  cases line.image <;> simp

theorem toList_blockText (indent : String) (lines : List Line) :
    (blockText indent lines).toList = joinLines (lines.map (spokenLine indent)) := by
  simp only [blockText, joinLines, String.toList_join, List.flatMap_map, toList_lineText]

def choiceLine (number : Nat) (name : String) : List Char :=
  ' ' :: ' ' :: (toString number).toList ++ '.' :: ' ' :: name.toList

/-- What choices are indented by, and then the dialogue under them. -/
def choiceIndent : String := "     "

def choiceGroups (number : Nat) : List Choice → List Group
  | [] => []
  | choice :: choices =>
    (choiceLine number choice.name, choice.dialogue.map (spokenLine choiceIndent)) ::
      choiceGroups (number + 1) choices

theorem toList_choicesText (number : Nat) (choices : List Choice) :
    (choicesText number choices).toList = joinLines (groupLines (choiceGroups number choices)) := by
  induction choices generalizing number with
  | nil => rfl
  | cons choice choices ih =>
    have hgroup : groupLines (choiceGroups number (choice :: choices)) =
        choiceLine number choice.name ::
          (choice.dialogue.map (spokenLine choiceIndent) ++
            groupLines (choiceGroups (number + 1) choices)) := by
      simp [groupLines, choiceGroups]
    rw [hgroup, joinLines_cons, joinLines_append, ← ih, ← toList_blockText]
    simp [choicesText, choiceLine, choiceIndent]

def ruleLine (waitForAll : Bool) : List Char :=
  ("CHOICE (" ++ ruleText waitForAll ++ "):").toList

def imageLines (label path : String) : List (List Char) :=
  if path = "" then [] else ['[' :: label.toList ++ ':' :: ' ' :: path.toList ++ [']']]

theorem toList_imageText (label path : String) :
    (imageText label path).toList = joinLines (imageLines label path) := by
  unfold imageText imageLines
  split <;> simp [joinLines]

/-- The lines of a part behind its empty line. -/
def partLines : Part → List (List Char)
  | .dialogue lines => lines.map (spokenLine "")
  | .branch choices waitForAll => ruleLine waitForAll :: groupLines (choiceGroups 1 choices)
  | .imageChange change =>
    imageLines "background" change.background ++ imageLines "sprite" change.character

theorem toList_partText (part : Part) : (partText part).toList = joinLines (partLines part) := by
  cases part with
  | dialogue lines => exact toList_blockText "" lines
  | branch choices waitForAll =>
    have hend : "):\n".toList = "):".toList ++ ['\n'] := by decide
    rw [partLines, joinLines_cons, ← toList_choicesText, partText, ruleLine]
    simp only [String.toList_append, hend, List.append_assoc, List.cons_append, List.nil_append]
  | imageChange change =>
    rw [partLines, joinLines_append, ← toList_imageText, ← toList_imageText, partText,
      String.toList_append]

def heading (version : String) : List Char :=
  ("=== Scene (schema v" ++ version ++ ") ===").toList

/-- An empty line opens every part. -/
def partGroups (parts : List Part) : List Group := parts.map fun part => ([], partLines part)

/-- A screenplay is its heading and then the groups of its parts. -/
theorem toList_render (scene : Scene) :
    (render scene).toList =
      joinLines (heading scene.version :: groupLines (partGroups scene.parts)) := by
  have hparts : (String.join (scene.parts.map fun part => "\n" ++ partText part)).toList =
      joinLines (groupLines (partGroups scene.parts)) := by
    induction scene.parts with
    | nil => rfl
    | cons part parts ih =>
      have hgroup : groupLines (partGroups (part :: parts)) =
          [] :: (partLines part ++ groupLines (partGroups parts)) := by
        simp [groupLines, partGroups]
      rw [hgroup, joinLines_cons, joinLines_append, ← ih, ← toList_partText]
      simp
  have hend : ") ===\n".toList = ") ===".toList ++ ['\n'] := by decide
  unfold render heading
  rw [String.toList_append, hparts, joinLines_cons]
  simp only [String.toList_append, hend, List.append_assoc, List.cons_append, List.nil_append]

end SceneScript.Preview
