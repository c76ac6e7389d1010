import SceneScript.Proofs.Preview.Lines

/-!
What a screenplay tells of its scene. Names and texts stand in it without quotes, so scenes that
differ in who says what may have one screenplay. They have the same outline then: no speaker, text
or name can pass for the line that opens a part or a choice, because speakers are in upper case,
dialogue under a choice is indented further than the choice, and no line is empty.
-/
namespace SceneScript

/-- What is left of a part when it is forgotten who says what. -/
inductive Outline where
  | dialogue (lineCount : Nat)
  | branch (choices : List (String × Nat)) (waitForAll : Bool)
  | imageChange (change : ImageChange)
  deriving DecidableEq

def Choice.outline (choice : Choice) : String × Nat := (choice.name, choice.dialogue.length)

def Part.outline : Part → Outline
  | .dialogue lines => .dialogue lines.length
  | .branch choices waitForAll => .branch (choices.map Choice.outline) waitForAll
  | .imageChange change => .imageChange change

/-! Scenes without line feeds -/

structure Line.NoLineFeed (line : Line) : Prop where
  speaker : '\n' ∉ line.speaker.toList
  text : '\n' ∉ line.text.toList
  image : ∀ image ∈ line.image, '\n' ∉ image.toList

instance (line : Line) : Decidable line.NoLineFeed :=
  decidable_of_iff ('\n' ∉ line.speaker.toList ∧ '\n' ∉ line.text.toList ∧
      ∀ image ∈ line.image, '\n' ∉ image.toList)
    ⟨fun h => ⟨h.1, h.2.1, h.2.2⟩, fun h => ⟨h.speaker, h.text, h.image⟩⟩

structure Choice.NoLineFeed (choice : Choice) : Prop where
  name : '\n' ∉ choice.name.toList
  dialogue : ∀ line ∈ choice.dialogue, line.NoLineFeed

instance (choice : Choice) : Decidable choice.NoLineFeed :=
  decidable_of_iff ('\n' ∉ choice.name.toList ∧ ∀ line ∈ choice.dialogue, line.NoLineFeed)
    ⟨fun h => ⟨h.1, h.2⟩, fun h => ⟨h.name, h.dialogue⟩⟩

def Part.NoLineFeed : Part → Prop
  | .dialogue lines => ∀ line ∈ lines, line.NoLineFeed
  | .branch choices _ => ∀ choice ∈ choices, choice.NoLineFeed
  | .imageChange change =>
    '\n' ∉ change.background.toList ∧ '\n' ∉ change.character.toList

instance (part : Part) : Decidable part.NoLineFeed :=
  match part with
  | .dialogue lines => inferInstanceAs (Decidable (∀ line ∈ lines, line.NoLineFeed))
  | .branch choices _ => inferInstanceAs (Decidable (∀ choice ∈ choices, choice.NoLineFeed))
  | .imageChange change => inferInstanceAs
    (Decidable ('\n' ∉ change.background.toList ∧ '\n' ∉ change.character.toList))

structure Scene.NoLineFeed (scene : Scene) : Prop where
  version : '\n' ∉ scene.version.toList
  parts : ∀ part ∈ scene.parts, part.NoLineFeed

instance (scene : Scene) : Decidable scene.NoLineFeed :=
  decidable_of_iff ('\n' ∉ scene.version.toList ∧ ∀ part ∈ scene.parts, part.NoLineFeed)
    ⟨fun h => ⟨h.1, h.2⟩, fun h => ⟨h.version, h.parts⟩⟩

namespace Preview

/-! Then no line of the screenplay has one either -/

theorem isDigit_of_mem_toString {n : Nat} {c : Char} (h : c ∈ (toString n).toList) :
    c.isDigit := by
  rw [Nat.toString_eq_repr, Nat.toList_repr] at h
  exact Nat.isDigit_of_mem_toDigits (by decide) (by decide) h

theorem lineFeed_not_mem_spokenLine {indent : String} (hindent : '\n' ∉ indent.toList)
    {line : Line} (h : line.NoLineFeed) : '\n' ∉ spokenLine indent line := by
  have hspeaker : '\n' ∉ (Text.uppercase line.speaker).toList :=
    fun hfeed => h.speaker (Text.lineFeed_mem_of_mem_uppercase hfeed)
  have htext := h.text
  have himage := h.image
  unfold spokenLine saidChars
  cases hcue : line.image with
  | none => simp [hindent, hspeaker, htext]
  | some image =>
    have hcueFeed := himage image hcue
    simp [hindent, hspeaker, htext, hcueFeed]

theorem lineFeed_not_mem_choiceLine {name : String} (h : '\n' ∉ name.toList) (number : Nat) :
    '\n' ∉ choiceLine number name := by
  have hnumber : '\n' ∉ (toString number).toList :=
    fun hfeed => absurd (isDigit_of_mem_toString hfeed) (by decide)
  simp only [choiceLine, List.cons_append, List.mem_cons, List.mem_append, not_or]
  exact ⟨by decide, by decide, hnumber, by decide, by decide, h⟩

/-- The lines of choices are those that open them and those spoken under them. -/
theorem mem_choiceGroups {number : Nat} {choices : List Choice} {line : List Char}
    (h : line ∈ groupLines (choiceGroups number choices)) :
    ∃ choice ∈ choices, (∃ n, line = choiceLine n choice.name) ∨
      ∃ spoken ∈ choice.dialogue, line = spokenLine choiceIndent spoken := by
  induction choices generalizing number with
  | nil => simp [choiceGroups, groupLines] at h
  | cons choice choices ih =>
    simp only [choiceGroups, groupLines, List.flatMap_cons, List.cons_append, List.mem_cons,
      List.mem_append, List.mem_map] at h
    rcases h with rfl | ⟨spoken, hspoken, rfl⟩ | h
    · exact ⟨choice, List.mem_cons_self .., Or.inl ⟨number, rfl⟩⟩
    · exact ⟨choice, List.mem_cons_self .., Or.inr ⟨spoken, hspoken, rfl⟩⟩
    · obtain ⟨other, hother, hline⟩ := ih h
      exact ⟨other, List.mem_cons_of_mem choice hother, hline⟩

theorem lineFeed_not_mem_imageLines {label path : String} (hlabel : '\n' ∉ label.toList)
    (h : '\n' ∉ path.toList) : ∀ line ∈ imageLines label path, '\n' ∉ line := by
  unfold imageLines
  split <;> simp [hlabel, h]

theorem lineFeed_not_mem_partLines {part : Part} (h : part.NoLineFeed) :
    ∀ line ∈ partLines part, '\n' ∉ line := by
  cases part with
  | dialogue lines =>
    intro line hline
    obtain ⟨spoken, hspoken, rfl⟩ := List.mem_map.mp hline
    exact lineFeed_not_mem_spokenLine (by decide) (h spoken hspoken)
  | branch choices waitForAll =>
    refine List.forall_mem_cons.mpr ⟨by cases waitForAll <;> decide, ?_⟩
    intro line hline
    obtain ⟨choice, hchoice, ⟨n, rfl⟩ | ⟨spoken, hspoken, rfl⟩⟩ := mem_choiceGroups hline
    · exact lineFeed_not_mem_choiceLine (h choice hchoice).name n
    · exact lineFeed_not_mem_spokenLine (by decide) ((h choice hchoice).dialogue spoken hspoken)
  | imageChange change =>
    intro line hline
    rcases List.mem_append.mp hline with hline | hline
    · exact lineFeed_not_mem_imageLines (by decide) h.1 line hline
    · exact lineFeed_not_mem_imageLines (by decide) h.2 line hline

/-- If no string has a line feed, none of the lines has. -/
theorem lineFeed_not_mem_lines {scene : Scene} (h : scene.NoLineFeed) :
    ∀ line ∈ heading scene.version :: groupLines (partGroups scene.parts), '\n' ∉ line := by
  refine List.forall_mem_cons.mpr ⟨?_, ?_⟩
  · have hversion := h.version
    have hbefore : '\n' ∉ "=== Scene (schema v".toList := by decide
    have hbehind : '\n' ∉ ") ===".toList := by decide
    unfold heading
    simp only [String.toList_append, List.mem_append, not_or]
    exact ⟨⟨hbefore, hversion⟩, hbehind⟩
  · intro line hline
    obtain ⟨g, hg, hmem⟩ := List.mem_flatMap.mp hline
    obtain ⟨part, hpart, rfl⟩ := List.mem_map.mp hg
    rcases List.mem_cons.mp hmem with rfl | hmem
    · simp
    · exact lineFeed_not_mem_partLines (h.parts part hpart) line hmem

/-! Choices -/

/-- The third character tells the line of a choice from the dialogue under it. -/
def OpensChoice (cs : List Char) : Prop := cs[2]? ≠ some ' '

theorem opensChoice_choiceLine (number : Nat) (name : String) :
    OpensChoice (choiceLine number name) := by
  have hne : (toString number).toList ≠ [] := by
    rw [Nat.toString_eq_repr, Nat.toList_repr]
    exact Nat.toDigits_ne_nil
  obtain ⟨d, ds, hdigits⟩ := List.exists_cons_of_ne_nil hne
  have hd : d.isDigit := isDigit_of_mem_toString (by rw [hdigits]; exact List.mem_cons_self ..)
  have hspace : d ≠ ' ' := by
    rintro rfl
    exact absurd hd (by decide)
  simp only [OpensChoice, choiceLine, hdigits, List.cons_append]
  simpa using hspace

/-- Dialogue under a choice is indented further than the choice. -/
theorem not_opensChoice_spokenLine (line : Line) : ¬ OpensChoice (spokenLine choiceIndent line) := by
  have hindent : choiceIndent.toList = [' ', ' ', ' ', ' ', ' '] := rfl
  simp [OpensChoice, spokenLine, hindent]

theorem openedBy_choiceGroups (number : Nat) (choices : List Choice) :
    ∀ g ∈ choiceGroups number choices, g.OpenedBy OpensChoice := by
  induction choices generalizing number with
  | nil => simp [choiceGroups]
  | cons choice choices ih =>
    refine List.forall_mem_cons.mpr ⟨⟨opensChoice_choiceLine number choice.name, ?_⟩, ih _⟩
    intro line hline
    obtain ⟨spoken, _, rfl⟩ := List.mem_map.mp hline
    exact not_opensChoice_spokenLine spoken

/-- The groups of choices tell their names and the number of lines under each. -/
theorem outline_of_choiceGroups {number : Nat} {choices choices' : List Choice}
    (h : choiceGroups number choices = choiceGroups number choices') :
    choices.map Choice.outline = choices'.map Choice.outline := by
  induction choices generalizing number choices' with
  | nil =>
    cases choices' with
    | nil => rfl
    | cons choice' choices' => simp [choiceGroups] at h
  | cons choice choices ih =>
    cases choices' with
    | nil => simp [choiceGroups] at h
    | cons choice' choices' =>
      simp only [choiceGroups, List.cons.injEq, Prod.mk.injEq] at h
      obtain ⟨⟨hline, hdialogue⟩, hothers⟩ := h
      have hname : choice.name = choice'.name := by
        apply String.toList_injective
        simpa [choiceLine] using hline
      have hlength : choice.dialogue.length = choice'.dialogue.length := by
        simpa using congrArg List.length hdialogue
      rw [List.map_cons, List.map_cons, ih hothers, Choice.outline, Choice.outline, hname, hlength]

/-! Parts -/

/-- A line that nobody speaks: there is a lower-case letter in front of every colon. -/
def IsDirection (line : List Char) : Prop :=
  ∃ before c behind, line = before ++ c :: behind ∧ c.isLower ∧ ':' ∉ before

/-- Speakers are shown in capitals, so no lower-case letter stands before their colon. -/
theorem not_isDirection_spokenLine (line : Line) : ¬ IsDirection (spokenLine "" line) := by
  rintro ⟨before, c, behind, heq, hlower, hcolon⟩
  have hline : spokenLine "" line =
      (Text.uppercase line.speaker).toList ++ ':' :: saidChars line := by simp [spokenLine]
  rw [hline] at heq
  -- Where the letter stands: in the speaker, at the colon behind it, or behind this colon.
  rcases List.append_eq_append_iff.mp heq with ⟨more, hbefore, hmore⟩ | ⟨more, hspeaker, hmore⟩
  · cases more with
    | nil =>
      obtain rfl : ':' = c := (List.cons.inj hmore).1
      exact absurd hlower (by decide)
    | cons d more =>
      obtain rfl : ':' = d := (List.cons.inj hmore).1
      exact hcolon (by rw [hbefore]; simp)
  · cases more with
    | nil =>
      obtain rfl : c = ':' := (List.cons.inj hmore).1
      exact absurd hlower (by decide)
    | cons d more =>
      obtain rfl : c = d := (List.cons.inj hmore).1
      have hmem : c ∈ (Text.uppercase line.speaker).toList := by rw [hspeaker]; simp
      exact Text.not_isLower_of_mem_uppercase hmem hlower

theorem isDirection_ruleLine (waitForAll : Bool) : IsDirection (ruleLine waitForAll) := by
  cases waitForAll
  · exact ⟨"CHOICE (".toList, 'p', "ick one):".toList, by decide, by decide, by decide⟩
  · exact ⟨"CHOICE (".toList, 'v', "isit every option):".toList, by decide, by decide, by decide⟩

theorem imageLines_eq_nil_iff {label path : String} : imageLines label path = [] ↔ path = "" := by
  unfold imageLines
  split <;> simp [*]

theorem eq_of_mem_imageLines {label path : String} {line : List Char}
    (h : line ∈ imageLines label path) :
    line = '[' :: label.toList ++ ':' :: ' ' :: path.toList ++ [']'] := by
  unfold imageLines at h
  split at h
  · simp at h
  · exact List.mem_singleton.mp h

/-- The line of a picture begins with a bracket and the first letter of its label. -/
theorem mem_partLines_imageChange {change : ImageChange} {line : List Char}
    (h : line ∈ partLines (.imageChange change)) :
    (∃ rest, line = '[' :: 'b' :: rest) ∨ ∃ rest, line = '[' :: 's' :: rest := by
  rcases List.mem_append.mp h with h | h
  · exact Or.inl ⟨_, eq_of_mem_imageLines h⟩
  · exact Or.inr ⟨_, eq_of_mem_imageLines h⟩

theorem isDirection_of_mem_imageLines {change : ImageChange} {line : List Char}
    (h : line ∈ partLines (.imageChange change)) : IsDirection line := by
  rcases mem_partLines_imageChange h with ⟨rest, rfl⟩ | ⟨rest, rfl⟩
  · exact ⟨['['], 'b', rest, rfl, by decide, by decide⟩
  · exact ⟨['['], 's', rest, rfl, by decide, by decide⟩

/-- Only the line that opens a part is empty. -/
theorem ne_nil_of_mem_partLines {part : Part} {line : List Char} (h : line ∈ partLines part) :
    line ≠ [] := by
  have hspoken (indent : String) (spoken : Line) : spokenLine indent spoken ≠ [] := by
    simp [spokenLine]
  have hdirection {line : List Char} (hline : IsDirection line) : line ≠ [] := by
    obtain ⟨before, c, behind, rfl, _⟩ := hline
    simp
  cases part with
  | dialogue lines =>
    obtain ⟨spoken, _, rfl⟩ := List.mem_map.mp h
    exact hspoken "" spoken
  | branch choices waitForAll =>
    rcases List.mem_cons.mp h with rfl | h
    · exact hdirection (isDirection_ruleLine waitForAll)
    · obtain ⟨choice, _, ⟨n, rfl⟩ | ⟨spoken, _, rfl⟩⟩ := mem_choiceGroups h
      · simp [choiceLine]
      · exact hspoken choiceIndent spoken
  | imageChange change => exact hdirection (isDirection_of_mem_imageLines h)

theorem openedBy_partGroups (parts : List Part) :
    ∀ g ∈ partGroups parts, g.OpenedBy (· = []) := by
  intro g hg
  obtain ⟨part, _, rfl⟩ := List.mem_map.mp hg
  exact ⟨rfl, fun line hline => ne_nil_of_mem_partLines hline⟩

/-- A part that is no dialogue has a line that nobody speaks, unless it changes no picture. -/
theorem exists_isDirection_or {part : Part} (h : part ≠ .imageChange ⟨"", ""⟩) :
    (∃ lines, part = .dialogue lines) ∨ ∃ line ∈ partLines part, IsDirection line := by
  cases part with
  | dialogue lines => exact Or.inl ⟨lines, rfl⟩
  | branch choices waitForAll =>
    exact Or.inr ⟨_, List.mem_cons_self .., isDirection_ruleLine waitForAll⟩
  | imageChange change =>
    have hne : partLines (.imageChange change) ≠ [] := by
      intro hnil
      obtain ⟨hbackground, hcharacter⟩ := List.append_eq_nil_iff.mp hnil
      rw [imageLines_eq_nil_iff] at hbackground hcharacter
      obtain ⟨background, character⟩ := change
      subst hbackground hcharacter
      exact h rfl
    obtain ⟨line, hline⟩ := List.exists_mem_of_ne_nil _ hne
    exact Or.inr ⟨line, hline, isDirection_of_mem_imageLines hline⟩

/-- Only dialogue has the lines of dialogue. -/
theorem eq_dialogue_of_partLines {part : Part} {lines : List Line}
    (hpart : part ≠ .imageChange ⟨"", ""⟩) (h : partLines part = partLines (.dialogue lines)) :
    ∃ lines', part = .dialogue lines' ∧ lines'.length = lines.length := by
  rcases exists_isDirection_or hpart with ⟨lines', rfl⟩ | ⟨line, hline, hdirection⟩
  · exact ⟨lines', rfl, by simpa [partLines] using congrArg List.length h⟩
  · rw [h] at hline
    obtain ⟨spoken, _, rfl⟩ := List.mem_map.mp hline
    exact absurd hdirection (not_isDirection_spokenLine spoken)

theorem ruleLine_injective {flag flag' : Bool} (h : ruleLine flag = ruleLine flag') :
    flag = flag' := by
  revert flag flag'
  decide

/-- A branch is told from a picture by its rule. -/
theorem ruleLine_not_mem_imageLines (change : ImageChange) (flag : Bool) :
    ruleLine flag ∉ partLines (.imageChange change) := by
  have hhead : (ruleLine flag).head? = some 'C' := by cases flag <;> decide
  intro h
  rcases mem_partLines_imageChange h with ⟨rest, hrest⟩ | ⟨rest, hrest⟩ <;>
    simp [hrest] at hhead

theorem path_eq_of_imageLines {label path path' : String}
    (h : imageLines label path = imageLines label path') : path = path' := by
  by_cases hpath : path = ""
  · rw [imageLines_eq_nil_iff.mpr hpath, eq_comm, imageLines_eq_nil_iff] at h
    rw [hpath, h]
  · have hmem : '[' :: label.toList ++ ':' :: ' ' :: path.toList ++ [']'] ∈
        imageLines label path' := by
      rw [← h, imageLines, if_neg hpath]
      exact List.mem_cons_self ..
    apply String.toList_injective
    simpa using eq_of_mem_imageLines hmem

/-- Both paths can be told from the lines of a picture. -/
theorem imageChange_eq_of_partLines {change change' : ImageChange}
    (h : partLines (.imageChange change) = partLines (.imageChange change')) :
    change = change' := by
  -- The label tells the two pictures apart, also when only one of them is mentioned.
  have hfilter (change : ImageChange) :
      (partLines (.imageChange change)).filter (fun cs => cs[1]? = some 'b') =
        imageLines "background" change.background := by
    have hbackground : ∀ cs ∈ imageLines "background" change.background, cs[1]? = some 'b' := by
      intro cs hcs
      rw [eq_of_mem_imageLines hcs]
      rfl
    have hsprite : ∀ cs ∈ imageLines "sprite" change.character, cs[1]? ≠ some 'b' := by
      intro cs hcs
      rw [eq_of_mem_imageLines hcs]
      exact fun hs => absurd hs (show some 's' ≠ some 'b' by decide)
    rw [partLines, List.filter_append, List.filter_eq_self.mpr (by simpa using hbackground),
      List.filter_eq_nil_iff.mpr (by simpa using hsprite), List.append_nil]
  have hbackground : imageLines "background" change.background =
      imageLines "background" change'.background := by rw [← hfilter, ← hfilter, h]
  have hcharacter : imageLines "sprite" change.character =
      imageLines "sprite" change'.character := by
    rw [partLines, partLines, hbackground] at h
    exact List.append_cancel_left h
  obtain ⟨background, character⟩ := change
  obtain ⟨background', character'⟩ := change'
  obtain rfl : background = background' := path_eq_of_imageLines hbackground
  obtain rfl : character = character' := path_eq_of_imageLines hcharacter
  rfl

/-- The lines of a part tell its outline. -/
theorem outline_of_partLines {part part' : Part} (hpart : part ≠ .imageChange ⟨"", ""⟩)
    (hpart' : part' ≠ .imageChange ⟨"", ""⟩) (h : partLines part = partLines part') :
    part.outline = part'.outline := by
  cases part with
  | dialogue lines =>
    obtain ⟨lines', rfl, hlength⟩ := eq_dialogue_of_partLines hpart' h.symm
    rw [Part.outline, Part.outline, hlength]
  | branch choices waitForAll =>
    cases part' with
    | dialogue lines =>
      obtain ⟨_, hbranch, _⟩ := eq_dialogue_of_partLines hpart h
      exact absurd hbranch (by simp)
    | branch choices' waitForAll' =>
      obtain ⟨hrule, hlines⟩ := List.cons.inj h
      have hgroups := groupLines_injective (openedBy_choiceGroups 1 choices)
        (openedBy_choiceGroups 1 choices') hlines
      rw [Part.outline, Part.outline, ruleLine_injective hrule, outline_of_choiceGroups hgroups]
    | imageChange change =>
      have hrule : ruleLine waitForAll ∈ partLines (.imageChange change) := by
        rw [← h]
        exact List.mem_cons_self ..
      exact absurd hrule (ruleLine_not_mem_imageLines change waitForAll)
  | imageChange change =>
    cases part' with
    | dialogue lines =>
      obtain ⟨_, hdialogue, _⟩ := eq_dialogue_of_partLines hpart h
      exact absurd hdialogue (by simp)
    | branch choices waitForAll =>
      have hrule : ruleLine waitForAll ∈ partLines (.imageChange change) := by
        rw [h]
        exact List.mem_cons_self ..
      exact absurd hrule (ruleLine_not_mem_imageLines change waitForAll)
    | imageChange change' => rw [Part.outline, Part.outline, imageChange_eq_of_partLines h]

theorem outlines_of_partGroups {parts parts' : List Part} (hparts : .imageChange ⟨"", ""⟩ ∉ parts)
    (hparts' : .imageChange ⟨"", ""⟩ ∉ parts') (h : partGroups parts = partGroups parts') :
    parts.map Part.outline = parts'.map Part.outline := by
  induction parts generalizing parts' with
  | nil =>
    cases parts' with
    | nil => rfl
    | cons part' parts' => simp [partGroups] at h
  | cons part parts ih =>
    cases parts' with
    | nil => simp [partGroups] at h
    | cons part' parts' =>
      simp only [List.mem_cons, not_or] at hparts hparts'
      obtain ⟨hgroup, hgroups⟩ := List.cons.inj h
      have hlines : partLines part = partLines part' := (Prod.mk.inj hgroup).2
      rw [List.map_cons, List.map_cons, ih hparts.2 hparts'.2 hgroups,
        outline_of_partLines (Ne.symm hparts.1) (Ne.symm hparts'.1) hlines]

/-- Scenes with one screenplay have one version and one outline, part by part: kinds, pictures,
the rules of branches, the names of their choices, and how many lines each dialogue has. An image
change that changes nothing is not shown, so there may be none, and a line feed could pass for the
end of a line. -/
theorem outline_determined {scene scene' : Scene} (hfeed : scene.NoLineFeed)
    (hfeed' : scene'.NoLineFeed) (hshown : .imageChange ⟨"", ""⟩ ∉ scene.parts)
    (hshown' : .imageChange ⟨"", ""⟩ ∉ scene'.parts) (h : render scene = render scene') :
    scene.version = scene'.version ∧
      scene.parts.map Part.outline = scene'.parts.map Part.outline := by
  have hchars := congrArg String.toList h
  rw [toList_render, toList_render] at hchars
  have hall := joinLines_injective (lineFeed_not_mem_lines hfeed) (lineFeed_not_mem_lines hfeed')
    hchars
  obtain ⟨hheading, hlines⟩ := List.cons.inj hall
  constructor
  · simp only [heading, String.toList_append, List.append_cancel_right_eq,
      List.append_cancel_left_eq] at hheading
    exact String.toList_injective hheading
  · exact outlines_of_partGroups hshown hshown' (groupLines_injective
      (openedBy_partGroups scene.parts) (openedBy_partGroups scene'.parts) hlines)

/-- Speakers and names that look like openings of other parts and choices. -/
def disguisedScene : Scene :=
  ⟨"1", [.dialogue [⟨"[background", "B.PNG: c]", none⟩, ⟨"choice (pick one)", "x", some "y"⟩],
    .branch [⟨"A", [⟨"  2. b", "Hi", none⟩]⟩, ⟨"3. c", []⟩] true, .imageChange ⟨"b", ""⟩,
    .dialogue []], some "o.json"⟩

def redisguisedScene : Scene :=
  ⟨"1", [.dialogue [⟨"[Background: b.png", "c]", none⟩, ⟨"Choice (pick one)", "x [y]", none⟩],
    .branch [⟨"A", [⟨"  2. B", "Hi", none⟩]⟩, ⟨"3. c", []⟩] true, .imageChange ⟨"b", ""⟩,
    .dialogue []], none⟩

theorem outline_disguisedScene :
    render disguisedScene = render redisguisedScene ∧
      disguisedScene.version = redisguisedScene.version ∧
      disguisedScene.parts.map Part.outline = redisguisedScene.parts.map Part.outline := by
  have hrender : render disguisedScene = render redisguisedScene := by decide +kernel
  have hfeed : disguisedScene.NoLineFeed := by decide +kernel
  have hfeed' : redisguisedScene.NoLineFeed := by decide +kernel
  exact ⟨hrender, outline_determined hfeed hfeed' (by decide) (by decide) hrender⟩

end Preview

end SceneScript
