import SceneScript.Proofs.Build.Denotes
import SceneScript.Proofs.Build.Valid
import SceneScript.Proofs.Lint.Findings

/-!
Which documents can be built. Well-formed content is asked for by one call for each of its pieces;
only an image change that sets both pictures or neither is beyond the builders.
-/
namespace SceneScript

open Build

section

variable {α β γ : Type}

def uncaught (action : β → α) (bs : List β) : List (Step α) := bs.map fun b => ⟨action b, false⟩

theorem collect_uncaught {contribution : α → List γ} {action : γ → α} {cs : List γ}
    (h : ∀ c ∈ cs, contribution (action c) = [c]) :
    collect contribution (uncaught action cs) = cs := by
  induction cs with
  | nil => rfl
  | cons c cs ih =>
    obtain ⟨hc, hcs⟩ := List.forall_mem_cons.mp h
    have hstep : collect contribution (uncaught action (c :: cs)) =
        contribution (action c) ++ collect contribution (uncaught action cs) := rfl
    rw [hstep, hc, ih hcs, List.singleton_append]

theorem collect_uncaught_eq_nil {contribution : α → List γ} {action : β → α} {bs : List β}
    (h : ∀ b ∈ bs, contribution (action b) = []) :
    collect contribution (uncaught action bs) = [] := by
  apply List.flatMap_eq_nil_iff.mpr
  intro step hstep
  obtain ⟨b, hb, rfl⟩ := List.mem_map.mp hstep
  exact h b hb

theorem allPlain_uncaught {isPlain : α → Prop} {action : β → α} {bs : List β}
    (h : ∀ b ∈ bs, isPlain (action b)) : AllPlain isPlain (uncaught action bs) := by
  intro step hstep
  obtain ⟨b, hb, rfl⟩ := List.mem_map.mp hstep
  exact ⟨rfl, h b hb⟩

end

theorem emptyFaults_eq_nil {value : String} {argument : Argument} (h : value ≠ "") :
    emptyFaults value argument = [] := if_neg h

/-! The calls for pieces of a document -/

namespace Line

def call (line : Line) : LineCall := ⟨some line.speaker, [.literal line.text], line.image⟩

def action (line : Line) : DialogueAction := .line line.call

theorem meantText_call (line : Line) : meantText line.call.text = line.text := by
  simp [meantText, call, TextPiece.meant]

/-- A line is what is meant by the call that is made of it. -/
theorem meant_call {line : Line} (h : line.Valid) : line.call.meant = line := by
  rw [LineCall.meant, meantText_call]
  obtain ⟨speaker, text, image⟩ := line
  cases image with
  | none => rfl
  | some image =>
    have himage : image ≠ "" := fun hempty => h.image_ne_empty (congrArg some hempty)
    simp [call, himage, Option.filter]

/-- Nothing is refused in the call that a well-formed line is made into. -/
theorem faults_call {line : Line} (h : line.Valid) : line.call.faults = [] := by
  have hname : nameFaults line.speaker = [] := by
    rw [nameFaults, if_neg h.speaker_ne_empty, if_neg h.speaker_ne_imageKey]
  have htext : textFaults line.call.text = [] := by
    rw [textFaults, meantText_call, emptyFaults_eq_nil h.text_ne_empty]
    rfl
  rw [LineCall.faults, htext]
  simpa [call] using hname

end Line

namespace Choice

def action (choice : Choice) : ChoicesAction :=
  .option choice.name (uncaught Line.action choice.dialogue)

theorem isPlain_action (choice : Choice) : choice.action.IsPlain :=
  allPlain_uncaught fun _ _ => trivial

end Choice

section

variable {lines : List Line} {choices : List Choice}

/-- The program of a dialogue says its lines, in their order. -/
theorem collect_lines (h : ∀ line ∈ lines, line.Valid) :
    collect DialogueAction.lines (uncaught Line.action lines) = lines :=
  collect_uncaught fun line hline => congrArg ([·]) (line.meant_call (h line hline))

theorem collect_lineFaults (h : ∀ line ∈ lines, line.Valid) :
    collect DialogueAction.faults (uncaught Line.action lines) = [] :=
  collect_uncaught_eq_nil fun line hline => line.faults_call (h line hline)

theorem collect_choices (h : ∀ choice ∈ choices, choice.Valid) :
    collect ChoicesAction.choices (uncaught Choice.action choices) = choices := by
  apply collect_uncaught
  intro choice hchoice
  rw [Choice.action, ChoicesAction.choices, collect_lines (h choice hchoice).dialogue]

theorem collect_choiceFaults (h : ∀ choice ∈ choices, choice.Valid) :
    collect ChoicesAction.faults (uncaught Choice.action choices) = [] := by
  apply collect_uncaught_eq_nil
  intro choice hchoice
  rw [Choice.action, ChoicesAction.faults, collect_lineFaults (h choice hchoice).dialogue,
    emptyFaults_eq_nil (h choice hchoice).name_ne_empty, List.nil_append]

end

namespace Part

/-- An image change that does not set one picture has no call of its own; its call sets one. -/
def action : Part → PartsAction
  | .dialogue lines => .dialogue (uncaught Line.action lines)
  | .branch choices waitForAll => .branchWith waitForAll (uncaught Choice.action choices)
  | .imageChange change =>
    if change.character = "" then .background change.background else .sprite change.character

theorem isPlain_action (part : Part) : part.action.IsPlain := by
  cases part with
  | dialogue lines => exact allPlain_uncaught fun _ _ => trivial
  | branch choices waitForAll => exact allPlain_uncaught fun choice _ => choice.isPlain_action
  | imageChange change =>
    rw [action]
    split <;> trivial

/-- The program of a part makes this part, provided that builders can make it at all. -/
theorem parts_action {part : Part} (h : part.Valid) (hone : part.SetsOnePicture) :
    part.action.parts = [part] := by
  cases part with
  | dialogue lines => rw [action, PartsAction.parts, collect_lines h]
  | branch choices waitForAll => rw [action, PartsAction.parts, collect_choices h]
  | imageChange change =>
    obtain ⟨background, character⟩ := change
    rw [action]
    split
    · rename_i hcharacter
      obtain rfl : character = "" := hcharacter
      rfl
    · rename_i hcharacter
      obtain rfl : background = "" := by
        by_contra hbackground
        exact hone (iff_of_false hbackground hcharacter)
      rfl

theorem faults_action {part : Part} (h : part.Valid) (hone : part.SetsOnePicture) :
    part.action.faults = [] := by
  cases part with
  | dialogue lines => exact collect_lineFaults h
  | branch choices waitForAll => exact collect_choiceFaults h
  | imageChange change =>
    rw [action]
    split
    · rename_i hcharacter
      exact emptyFaults_eq_nil fun hbackground => hone (iff_of_true hbackground hcharacter)
    · rename_i hcharacter
      exact emptyFaults_eq_nil hcharacter

end Part

/-! Building the parts of a document -/

def PartsProgram.Builds (steps : PartsProgram) (parts : List Part) (place : List Nat)
    (s : Session Stage) : Prop :=
  ((Stage.parts (PartsAction.runAll place steps)).outcome s).1 = .ok () ∧
    ((Stage.parts (PartsAction.runAll place steps)).outcome s).2.scene.parts = parts

/-- Well-formed parts that each set one picture are built by the program that is made of them. -/
theorem builds_uncaught {parts : List Part} (hvalid : ∀ part ∈ parts, part.Valid)
    (hone : ∀ part ∈ parts, part.SetsOnePicture) (place : List Nat) (s : Session Stage) :
    PartsProgram.Builds (uncaught Part.action parts) parts place s := by
  have hplain : AllPlain PartsAction.IsPlain (uncaught Part.action parts) :=
    allPlain_uncaught fun part _ => part.isPlain_action
  have hbody := PartsAction.denotes_runAll place hplain
  have hfaults : collect PartsAction.faults (uncaught Part.action parts) = [] :=
    collect_uncaught_eq_nil fun part hpart =>
      Part.faults_action (hvalid part hpart) (hone part hpart)
  have hparts : collect PartsAction.parts (uncaught Part.action parts) = parts :=
    collect_uncaught fun part hpart => Part.parts_action (hvalid part hpart) (hone part hpart)
  rw [hfaults, hparts] at hbody
  have houtcome := Stage.denotes_parts hbody s
  exact ⟨congrArg Prod.fst houtcome, by rw [houtcome]; rfl⟩

/-- The parts that replace others were built by a builder of their own. -/
theorem Stage.parts_eq_of_ok {body : Build Parts Unit} {s : Session Stage}
    (hok : ((Stage.parts body).outcome s).1 = .ok ()) :
    ((Stage.parts body).outcome s).2.scene.parts = (body.outcome ⟨{}, s.journal⟩).2.parts := by
  unfold Stage.parts at hok ⊢
  cases hbody : body ⟨{}, s.journal⟩ with
  | error e t =>
    have hwithin : (within {} body : Build Stage Parts) s = .error e ⟨s.built, t.journal⟩ := by
      rw [within, hbody]
    rw [outcome_bind_of_error hwithin] at hok
    cases hok
  | ok _ t =>
    have hwithin : (within {} body : Build Stage Parts) s = .ok t.built ⟨s.built, t.journal⟩ := by
      rw [within, hbody]
    have hbuilt (u : Session Stage) : (Build.built : Build Stage Stage) u = .ok u.built u := rfl
    rw [outcome_bind_of_ok hwithin, outcome_bind_of_ok (hbuilt _),
      outcome_eq_ok_iff.mpr ⟨t, hbody, rfl⟩]
    dsimp only
    split <;> rfl

/-- Whatever is caught on the way, image changes that are built set one picture. -/
theorem PartsProgram.Builds.setsOnePicture {steps : PartsProgram} {parts : List Part}
    {place : List Nat} {s : Session Stage} (h : steps.Builds parts place s) :
    ∀ part ∈ parts, part.SetsOnePicture := by
  obtain ⟨hok, rfl⟩ := h
  rw [Stage.parts_eq_of_ok hok]
  exact (PartsAction.maintains_setsOnePicture_runAll place steps ⟨{}, s.journal⟩
    Parts.setsOnePicture_blank).1

/-- The parts of a document can be built, with nothing caught, exactly when each of its image
changes sets one picture, which is when the linter does not warn about any. -/
theorem Scene.buildable_iff {source : String} {scene : Scene}
    (h : Scene.parse source = .ok scene) (place : List Nat) (s : Session Stage) :
    ((∃ steps, AllPlain PartsAction.IsPlain steps ∧
          PartsProgram.Builds steps scene.parts place s) ↔
        ∀ part ∈ scene.parts, part.SetsOnePicture) ∧
      ((∃ steps, PartsProgram.Builds steps scene.parts place s) ↔
        ∀ part ∈ scene.parts, part.SetsOnePicture) ∧
      ((∀ part ∈ scene.parts, part.SetsOnePicture) ↔
        ∀ warning ∈ Lint.warnings scene,
          ¬ Lint.Problem.ambiguousImage.message.toList <:+ warning.toList) := by
  have hplain : AllPlain PartsAction.IsPlain (uncaught Part.action scene.parts) :=
    allPlain_uncaught fun part _ => part.isPlain_action
  have hbuilds (hone : ∀ part ∈ scene.parts, part.SetsOnePicture) :=
    builds_uncaught (Scene.valid_of_parse h) hone place s
  refine ⟨⟨?_, ?_⟩, ⟨?_, ?_⟩, Lint.forall_warnings_iff.symm⟩
  · intro ⟨steps, _, hsteps⟩
    exact hsteps.setsOnePicture
  · intro hone
    exact ⟨_, hplain, hbuilds hone⟩
  · intro ⟨steps, hsteps⟩
    exact hsteps.setsOnePicture
  · intro hone
    exact ⟨_, hbuilds hone⟩

def pictureSource (background character : String) : String :=
  "[\"1\", [[\"IMAGE_CHANGE\", [\"" ++ background ++ "\", \"" ++ character ++ "\"]]]]"

/-- One picture can be built; two pictures at once, which a document may hold, cannot. -/
theorem Scene.buildable_pictures :
    (∃ steps, AllPlain PartsAction.IsPlain steps ∧
        PartsProgram.Builds steps [.imageChange ⟨"b.png", ""⟩] [] ⟨{}, []⟩) ∧
      ¬ ∃ steps, PartsProgram.Builds steps [.imageChange ⟨"b.png", "s.png"⟩] [] ⟨{}, []⟩ := by
  have hone : Scene.parse (pictureSource "b.png" "") =
      .ok ⟨"1", [.imageChange ⟨"b.png", ""⟩], none⟩ := by decide +kernel
  have hboth : Scene.parse (pictureSource "b.png" "s.png") =
      .ok ⟨"1", [.imageChange ⟨"b.png", "s.png"⟩], none⟩ := by decide +kernel
  constructor
  · apply (buildable_iff hone [] ⟨{}, []⟩).1.mpr
    simp [Part.SetsOnePicture, ImageChange.SetsOne]
  · intro hbuilds
    have hsets := (buildable_iff hboth [] ⟨{}, []⟩).2.1.mp hbuilds
    simp [Part.SetsOnePicture, ImageChange.SetsOne] at hsets

end SceneScript
