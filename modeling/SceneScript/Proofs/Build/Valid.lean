import SceneScript.Proofs.Build.Arguments
import SceneScript.Proofs.Build.Maintains
import SceneScript.Proofs.Document.RoundTrip

/-!
Builders hold well-formed content only. Lines are made by speakers, choices have names, and what a
nested builder hands over was well-formed in there already; a document that replaces the scene is
well-formed by its grammar. Failures, caught or not, do not matter.
-/
namespace SceneScript

open Build

namespace LineCall

/-- Every speaker of a line has passed the check of names, the narrator too. -/
theorem exists_ofName_of_maker {call : LineCall} {speaker : Speaker}
    (h : call.maker = .ok speaker) : ∃ name, Speaker.ofName name = .ok speaker := by
  unfold maker at h
  split at h
  · obtain rfl : Speaker.narrator = speaker := by simpa using h
    exact ⟨"narrator", by decide⟩
  · exact ⟨_, h⟩

/-- Lines are well-formed because their arguments are checked before they are made. -/
theorem valid_of_line {call : LineCall} {line : Line} (h : call.line = .ok line) :
    line.Valid := by
  rw [line_eq] at h
  obtain ⟨speaker, hspeaker, h⟩ := except_bind_eq_ok_iff.mp h
  obtain ⟨text, _, h⟩ := except_bind_eq_ok_iff.mp h
  obtain ⟨name, hname⟩ := exists_ofName_of_maker hspeaker
  exact Speaker.valid_of_speakWithImage hname h

end LineCall

def Monologue.Valid (m : Monologue) : Prop := ∀ line ∈ m.lines, line.Valid

def Dialogue.Valid (d : Dialogue) : Prop := ∀ line ∈ d.lines, line.Valid

def Choices.Valid (b : Choices) : Prop := ∀ choice ∈ b.choices, choice.Valid

def Parts.Valid (b : Parts) : Prop := ∀ part ∈ b.parts, part.Valid

/-- No image change that is built sets both pictures or neither. -/
def Parts.SetsOnePicture (b : Parts) : Prop := ∀ part ∈ b.parts, part.SetsOnePicture

def Stage.Valid (stage : Stage) : Prop := stage.scene.Valid

theorem Monologue.valid_blank : ({} : Monologue).Valid := by
  intro line hline
  simp at hline

theorem Dialogue.valid_blank : ({} : Dialogue).Valid := by
  intro line hline
  simp at hline

theorem Choices.valid_blank : ({} : Choices).Valid := by
  intro choice hchoice
  simp at hchoice

theorem Parts.valid_blank : ({} : Parts).Valid := by
  intro part hpart
  simp at hpart

theorem Parts.setsOnePicture_blank : ({} : Parts).SetsOnePicture := by
  intro part hpart
  simp at hpart

theorem ne_empty_of_requireNonEmpty {value : String} {argument : Argument} {u : Unit}
    (h : requireNonEmpty value argument = .ok u) : value ≠ "" := by
  intro hempty
  simp [requireNonEmpty, hempty] at h

theorem forall_mem_snoc {α : Type} {P : α → Prop} {as : List α} {a : α}
    (has : ∀ b ∈ as, P b) (ha : P a) : ∀ b ∈ as ++ [a], P b := by
  intro b hb
  rcases List.mem_append.mp hb with hb | hb
  · exact has b hb
  · rw [List.mem_singleton.mp hb]
    exact ha

/-! Monologues -/

theorem Monologue.maintains_say {line : Line} (h : line.Valid) :
    Maintains Monologue.Valid (Monologue.say line) fun _ => True := by
  apply maintains_update
  intro m hm
  exact forall_mem_snoc hm h

theorem Monologue.maintains_monologue {body : Build Monologue Unit} {Q : Unit → Prop}
    (h : Maintains Monologue.Valid body Q) :
    Maintains Monologue.Valid (Monologue.monologue body) fun _ => True := by
  apply (h.within Monologue.valid_blank).bind
  intro inner hinner
  apply maintains_update
  intro m hm
  exact List.forall_mem_append.mpr ⟨hm, hinner⟩

namespace MonologueProgram

theorem maintains_sayCall (call : LineCall) :
    Maintains Monologue.Valid (do Monologue.say (← require call.line)) fun _ => True := by
  apply (maintains_require call.line).bind
  intro line hline
  exact Monologue.maintains_say (LineCall.valid_of_line hline)

theorem maintains_sayAll (calls : List LineCall) :
    Maintains Monologue.Valid (sayAll calls) fun _ => True := by
  induction calls with
  | nil => exact maintains_pure trivial
  | cons call calls ih =>
    apply (maintains_require call.line).bind
    intro line hline
    have hsay := Monologue.maintains_say (LineCall.valid_of_line hline)
    exact hsay.bind fun _ _ => ih

/-- Builders of lines hold well-formed lines whatever the program says, failures included. -/
theorem maintains_run (place : List Nat) (i : Nat) (program : MonologueProgram) :
    Maintains Monologue.Valid (program.run place i) fun _ => True := by
  induction program generalizing place i with
  | done => exact maintains_pure trivial
  | say call isCaught next ih =>
    apply ((maintains_sayCall call).perform _ _ _ _).bind
    intro _ _
    exact ih place (i + 1)
  | chain calls isCaught next ih =>
    apply ((maintains_sayAll calls).perform _ _ _ _).bind
    intro _ _
    exact ih place (i + 1)
  | monologue body isCaught next ihbody ih =>
    have hbody := Monologue.maintains_monologue (ihbody (place ++ [i]) 0)
    apply (hbody.perform _ _ _ _).bind
    intro _ _
    exact ih place (i + 1)
  | fail message isCaught next ih =>
    apply ((maintains_failWith message).perform _ _ _ _).bind
    intro _ _
    exact ih place (i + 1)

end MonologueProgram

/-! Dialogue -/

theorem Dialogue.maintains_line {line : Line} (h : line.Valid) :
    Maintains Dialogue.Valid (Dialogue.line line) fun _ => True := by
  apply maintains_update
  intro d hd
  exact forall_mem_snoc hd h

theorem Dialogue.maintains_narrate (text : String) :
    Maintains Dialogue.Valid (Dialogue.narrate text) fun _ => True := by
  apply (maintains_require _).bind
  intro line hline
  have hname : Speaker.ofName "narrator" = .ok ⟨"narrator"⟩ := by decide
  exact Dialogue.maintains_line (Speaker.valid_of_speakWithImage hname hline)

theorem Dialogue.maintains_monologue {body : Build Monologue Unit} {Q : Unit → Prop}
    (h : Maintains Monologue.Valid body Q) :
    Maintains Dialogue.Valid (Dialogue.monologue body) fun _ => True := by
  apply (h.within Monologue.valid_blank).bind
  intro inner hinner
  apply (maintains_log _).bind
  intro _ _
  apply maintains_update
  intro d hd
  exact List.forall_mem_append.mpr ⟨hd, hinner⟩

namespace DialogueAction

theorem maintains_run (place : List Nat) (action : DialogueAction) :
    Maintains Dialogue.Valid (action.run place) fun _ => True := by
  cases action with
  | line call =>
    apply (maintains_require call.line).bind
    intro line hline
    exact Dialogue.maintains_line (LineCall.valid_of_line hline)
  | narrate text =>
    apply (maintains_require (textOf text)).bind
    intro text _
    exact Dialogue.maintains_narrate text
  | monologue body => exact Dialogue.maintains_monologue (body.maintains_run place 0)
  | fail message => exact maintains_failWith message

/-- A dialogue stays well-formed throughout. -/
theorem maintains_runAll (place : List Nat) (steps : DialogueProgram) :
    Maintains Dialogue.Valid (runAll place steps) fun _ => True :=
  maintains_performAll fun place step _ => maintains_run place step.action

end DialogueAction

/-! Choices -/

/-- The name of a choice has been checked when the choice is added. -/
theorem Choices.maintains_option {name : String} {body : Build Dialogue Unit} {Q : Unit → Prop}
    (h : Maintains Dialogue.Valid body Q) :
    Maintains Choices.Valid (Choices.option name body) fun _ => True := by
  apply (maintains_require _).bind
  intro _ hchecked
  have hname := ne_empty_of_requireNonEmpty hchecked
  apply (h.within Dialogue.valid_blank).bind
  intro dialogue hdialogue
  apply (maintains_log _).bind
  intro _ _
  apply maintains_update
  intro b hb
  exact forall_mem_snoc hb ⟨hname, hdialogue⟩

namespace ChoicesAction

theorem maintains_run (place : List Nat) (action : ChoicesAction) :
    Maintains Choices.Valid (action.run place) fun _ => True := by
  cases action with
  | option name body => exact Choices.maintains_option (DialogueAction.maintains_runAll place body)
  | fail message => exact maintains_failWith message

theorem maintains_runAll (place : List Nat) (steps : ChoicesProgram) :
    Maintains Choices.Valid (runAll place steps) fun _ => True :=
  maintains_performAll fun place step _ => maintains_run place step.action

end ChoicesAction

/-! Parts -/

namespace Parts

variable {P : Part → Prop}

/-- A property that all parts have. -/
theorem maintains_append {part : Part} (h : P part) :
    Maintains (fun b : Parts => ∀ p ∈ b.parts, P p) (append part) fun _ => True := by
  apply maintains_built.bind
  intro _ _
  apply (maintains_log _).bind
  intro _ _
  apply maintains_update
  intro b hb
  exact forall_mem_snoc hb h

theorem maintains_dialogue {body : Build Dialogue Unit} {Q : Unit → Prop}
    (h : Maintains Dialogue.Valid body Q)
    (hpart : ∀ lines, (∀ line ∈ lines, line.Valid) → P (.dialogue lines)) :
    Maintains (fun b : Parts => ∀ p ∈ b.parts, P p) (dialogue body) fun _ => True := by
  apply (h.within Dialogue.valid_blank).bind
  intro inner hinner
  exact maintains_append (hpart inner.lines hinner)

theorem maintains_branchWith {waitForAll : Bool} {body : Build Choices Unit} {Q : Unit → Prop}
    (h : Maintains Choices.Valid body Q)
    (hpart : ∀ choices, (∀ choice ∈ choices, choice.Valid) → P (.branch choices waitForAll)) :
    Maintains (fun b : Parts => ∀ p ∈ b.parts, P p) (branchWith waitForAll body) fun _ => True := by
  apply (h.within Choices.valid_blank).bind
  intro inner hinner
  exact maintains_append (hpart inner.choices hinner)

/-- The two kinds of image changes differ in the path that they check and set. -/
theorem maintains_imageChange {path : String} {argument : Argument} {change : ImageChange}
    (hpart : path ≠ "" → P (.imageChange change)) :
    Maintains (fun b : Parts => ∀ p ∈ b.parts, P p)
      (do require (requireNonEmpty path argument); append (.imageChange change)) fun _ => True := by
  apply (maintains_require _).bind
  intro _ hchecked
  exact maintains_append (hpart (ne_empty_of_requireNonEmpty hchecked))

end Parts

namespace PartsAction

section

variable {P : Part → Prop}
  (hdialogue : ∀ lines, (∀ line ∈ lines, line.Valid) → P (.dialogue lines))
  (hbranch : ∀ choices flag, (∀ choice ∈ choices, choice.Valid) → P (.branch choices flag))
  (hbackground : ∀ path, path ≠ "" → P (.imageChange ⟨path, ""⟩))
  (hsprite : ∀ path, path ≠ "" → P (.imageChange ⟨"", path⟩))

include hdialogue hbranch hbackground hsprite

/-- The parts that a step can add: dialogue and branches of well-formed content, and image changes
with one path that is not empty. -/
theorem maintains_forall_part (place : List Nat) (action : PartsAction) :
    Maintains (fun b : Parts => ∀ part ∈ b.parts, P part) (action.run place) fun _ => True := by
  cases action with
  | dialogue body =>
    exact Parts.maintains_dialogue (DialogueAction.maintains_runAll place body) hdialogue
  | branch body =>
    exact Parts.maintains_branchWith (ChoicesAction.maintains_runAll place body)
      fun choices => hbranch choices false
  | branchWith waitForAll body =>
    exact Parts.maintains_branchWith (ChoicesAction.maintains_runAll place body)
      fun choices => hbranch choices waitForAll
  | background path => exact Parts.maintains_imageChange (hbackground path)
  | sprite path => exact Parts.maintains_imageChange (hsprite path)
  | fail message => exact maintains_failWith message

end

theorem maintains_run (place : List Nat) (action : PartsAction) :
    Maintains Parts.Valid (action.run place) fun _ => True :=
  maintains_forall_part (fun _ hlines => hlines) (fun _ _ hchoices => hchoices)
    (fun _ _ => trivial) (fun _ _ => trivial) place action

theorem maintains_runAll (place : List Nat) (steps : PartsProgram) :
    Maintains Parts.Valid (runAll place steps) fun _ => True :=
  maintains_performAll fun place step _ => maintains_run place step.action

/-- The calls for pictures set one picture each, and no other call makes an image change. -/
theorem maintains_setsOnePicture (place : List Nat) (action : PartsAction) :
    Maintains Parts.SetsOnePicture (action.run place) fun _ => True := by
  apply maintains_forall_part
  · intro _ _
    trivial
  · intro _ _ _
    trivial
  · intro path hpath
    simp [Part.SetsOnePicture, ImageChange.SetsOne, hpath]
  · intro path hpath
    simp [Part.SetsOnePicture, ImageChange.SetsOne, hpath]

theorem maintains_setsOnePicture_runAll (place : List Nat) (steps : PartsProgram) :
    Maintains Parts.SetsOnePicture (runAll place steps) fun _ => True :=
  maintains_performAll fun place step _ => maintains_setsOnePicture place step.action

end PartsAction

/-! Stages -/

namespace Stage

variable {P : Scene → Prop}

theorem maintains_updateScene {f : Scene → Scene} (hf : ∀ scene, P scene → P (f scene)) :
    Maintains (fun stage => P stage.scene) (updateScene f) fun _ => True :=
  maintains_update fun stage hstage => hf stage.scene hstage

/-- The builder of the parts may maintain a property of its own. -/
theorem maintains_parts {I : Parts → Prop} (hblank : I {}) {body : Build Parts Unit}
    {Q : Unit → Prop} (h : Maintains I body Q)
    (hreplace : ∀ scene inner, P scene → I inner → P { scene with parts := inner.parts }) :
    Maintains (fun stage => P stage.scene) (Stage.parts body) fun _ => True := by
  apply (h.within hblank).bind
  intro inner hinner
  apply maintains_built.bind
  intro stage _
  have hupdate : Maintains (fun stage => P stage.scene)
      (updateScene fun scene => { scene with parts := inner.parts }) fun _ => True :=
    maintains_updateScene fun scene hscene => hreplace scene inner hscene hinner
  dsimp only
  split
  · exact hupdate
  · exact (maintains_log _).bind fun _ _ => hupdate

theorem maintains_parse {source : String} (h : ∀ scene, Scene.parse source = .ok scene → P scene) :
    Maintains (fun stage => P stage.scene) (Stage.parse source) fun _ => True := by
  unfold Stage.parse
  split
  · rename_i scene hscene
    exact maintains_updateScene fun _ _ => h scene hscene
  · exact maintains_throw _ _

/-- Writing leaves the scene alone. -/
theorem maintains_writeWith (writer : Writer) (config : WriteConfig) :
    Maintains (fun stage => P stage.scene) (Stage.writeWith writer config) fun _ => True := by
  apply maintains_built.bind
  intro stage _
  split
  · exact maintains_log _
  · have hupdate (world : World) : Maintains (fun stage => P stage.scene)
        (update fun stage : Stage => { stage with world }) fun _ => True :=
      maintains_update fun _ hstage => hstage
    apply (hupdate _).bind
    intro _ _
    split
    · exact maintains_log _
    · exact maintains_throw _ _

end Stage

namespace SceneAction

/-- What a step does to a scene: it may give it another version, another output path, the parts of
a builder, or put a parsed scene in its place. -/
theorem maintains_scene {P : Scene → Prop} {I : Parts → Prop} (hblank : I {})
    (hbuild : ∀ place body, Maintains I (PartsAction.runAll place body) fun _ => True)
    (hversion : ∀ scene number, P scene → P (scene.withVersion number))
    (houtput : ∀ scene path, P scene → P (scene.withOutput path))
    (hreplace : ∀ scene inner, P scene → I inner → P { scene with parts := inner.parts })
    (place : List Nat) (action : SceneAction)
    (hparse : ∀ source scene, action = .parse source → Scene.parse source = .ok scene → P scene) :
    Maintains (fun stage => P stage.scene) (action.run place) fun _ => True := by
  cases action with
  | version number =>
    exact Stage.maintains_updateScene fun scene hscene => hversion scene number hscene
  | output path => exact Stage.maintains_updateScene fun scene hscene => houtput scene path hscene
  | parts body => exact Stage.maintains_parts hblank (hbuild place body) hreplace
  | snapshot => exact maintains_built.bind fun _ _ => maintains_note _
  | write => exact Stage.maintains_writeWith Writer.files {}
  | writeWith source writer =>
    rw [run]
    cases source.config with
    | ok config => exact Stage.maintains_writeWith writer config
    | error e => exact maintains_throw e _
  | parse source => exact Stage.maintains_parse fun scene hscene => hparse source scene rfl hscene
  | fail message => exact maintains_failWith message

/-- A step keeps the scene well-formed, also when it replaces the scene by that of a document. -/
theorem maintains_run (place : List Nat) (action : SceneAction) :
    Maintains Stage.Valid (action.run place) fun _ => True :=
  maintains_scene Parts.valid_blank PartsAction.maintains_runAll (fun _ _ hscene => hscene)
    (fun _ _ hscene => hscene) (fun _ _ _ hinner => hinner) place action
    fun _ _ _ hscene => Scene.valid_of_parse hscene

end SceneAction

end SceneScript
