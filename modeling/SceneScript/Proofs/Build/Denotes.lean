import Mathlib.Data.List.Induction
import SceneScript.Proofs.Build.Meaning
import SceneScript.Proofs.Build.Outcome

/-!
The builders against the meaning of programs. Each scope collects on its own and hands over when it
closes; what this comes to is that the contributions of the steps are put one behind the other.
A program in which nothing is caught builds its meaning when no argument is at fault, and fails
with the first fault otherwise.
-/
namespace SceneScript

namespace Build

variable {α β γ : Type}

/-- Whatever was built before: with no fault the operation returns a value and changes what is
built in one way, and else it fails with the first fault. -/
def Denotes (body : Build β α) (faults : List InvalidInput) (a : α) (f : β → β) : Prop :=
  ∀ s : Session β,
    match faults with
    | [] => body.outcome s = (.ok a, f s.built)
    | fault :: _ => (body.outcome s).1 = .error (.invalidInput fault)

/-- First one operation, then another: the faults of the first come first. -/
theorem Denotes.bind {body : Build β α} {next : α → Build β γ}
    {firsts others faults : List InvalidInput} {a : α} {c : γ} {f g e : β → β}
    (h : Denotes body firsts a f) (hnext : Denotes (next a) others c g)
    (hfaults : faults = firsts ++ others) (heffect : ∀ b, e b = g (f b)) :
    Denotes (body >>= next) faults c e := by
  intro s
  have hs := h s
  subst hfaults
  cases firsts with
  | nil =>
    obtain ⟨t, hbody, ht⟩ := outcome_eq_ok_iff.mp hs
    have hother := hnext t
    rw [ht, ← heffect] at hother
    rw [List.nil_append, outcome_bind_of_ok hbody]
    exact hother
  | cons fault firsts =>
    have herror : body.outcome s = (.error (.invalidInput fault), (body.outcome s).2) :=
      Prod.ext hs rfl
    obtain ⟨t, hbody, _⟩ := outcome_eq_error_iff.mp herror
    exact congrArg Prod.fst (outcome_bind_of_error hbody)

theorem denotes_pure (a : α) : Denotes (pure a : Build β α) [] a id := fun _ => rfl

theorem denotes_log (record : Record) : Denotes (log record : Build β Unit) [] () id :=
  fun _ => rfl

theorem denotes_update (f : β → β) : Denotes (update f) [] () f := fun _ => rfl

/-- A checked argument has no effect of its own: it gives its value, or the first fault. -/
theorem denotes_require {checked : Except InvalidInput α} {faults : List InvalidInput} {a : α}
    (h : checked = verdict faults a) : Denotes (require checked : Build β α) faults a id := by
  intro s
  rw [outcome_require, h]
  cases faults <;> rfl

/-- A nested scope adds nothing to the scope around it by itself. -/
theorem Denotes.within {body : Build γ Unit} {faults : List InvalidInput} {f : γ → γ}
    (h : Denotes body faults () f) (blank : γ) :
    Denotes (within blank body : Build β γ) faults (f blank) id := by
  intro s
  have hs := h ⟨blank, s.journal⟩
  rw [outcome_within]
  cases faults with
  | nil =>
    rw [hs]
    rfl
  | cons fault faults =>
    rw [hs]
    rfl

/-- A step that is not caught means what its action means. -/
theorem Denotes.perform {action : Build β Unit} {faults : List InvalidInput} {f : β → β}
    (h : Denotes action faults () f) (place : List Nat) (step : String) (progress : β → Progress) :
    Denotes (perform place step progress false action) faults () f := by
  intro s
  have hs := h s
  rw [outcome_perform]
  cases faults with
  | nil =>
    rw [hs]
    rfl
  | cons fault faults => exact hs

/-- A scope does what its steps do, one after the other. -/
theorem denotes_performAll {place : List Nat} {name : α → String} {progress : β → Progress}
    {run : List Nat → α → Build β Unit} {isPlain : α → Prop} {faults : α → List InvalidInput}
    {effect : α → β → β}
    (h : ∀ place action, isPlain action →
      Denotes (run place action) (faults action) () (effect action))
    {i : Nat} {steps : List (Step α)} (hsteps : AllPlain isPlain steps) :
    Denotes (performAll place name progress run i steps) (collect faults steps) ()
      fun b => steps.foldl (fun b step => effect step.action b) b := by
  induction steps generalizing i with
  | nil => exact denotes_pure ()
  | cons step steps ih =>
    obtain ⟨hcaught, hplain⟩ := hsteps step (List.mem_cons_self ..)
    have hstep := (h (place ++ [i]) step.action hplain).perform (place ++ [i]) (name step.action)
      progress
    have hplains : AllPlain isPlain steps := by
      intro other hother
      exact hsteps other (List.mem_cons_of_mem step hother)
    have hothers := ih (i := i + 1) hplains
    rw [performAll, hcaught]
    exact hstep.bind hothers rfl fun _ => rfl

/-- Contributions that are put one behind the other make up one contribution. -/
theorem foldl_add {add : List γ → β → β} (hnil : ∀ b, add [] b = b)
    (happend : ∀ first others b, add (first ++ others) b = add others (add first b))
    (contribution : α → List γ) (steps : List (Step α)) (b : β) :
    steps.foldl (fun b step => add (contribution step.action) b) b =
      add (collect contribution steps) b := by
  induction steps generalizing b with
  | nil => exact (hnil b).symm
  | cons step steps ih =>
    rw [List.foldl_cons, ih, ← happend]
    rfl

/-- A scope whose steps add to what is built adds all that they add. -/
theorem denotes_performAll_add {place : List Nat} {name : α → String} {progress : β → Progress}
    {run : List Nat → α → Build β Unit} {isPlain : α → Prop} {faults : α → List InvalidInput}
    {contribution : α → List γ} {add : List γ → β → β} (hnil : ∀ b, add [] b = b)
    (happend : ∀ first others b, add (first ++ others) b = add others (add first b))
    (h : ∀ place action, isPlain action →
      Denotes (run place action) (faults action) () (add (contribution action)))
    {i : Nat} {steps : List (Step α)} (hsteps : AllPlain isPlain steps) :
    Denotes (performAll place name progress run i steps) (collect faults steps) ()
      (add (collect contribution steps)) := by
  have hfold : (fun b => steps.foldl (fun b step => add (contribution step.action) b) b) =
      add (collect contribution steps) := funext (foldl_add hnil happend contribution steps)
  rw [← hfold]
  exact denotes_performAll h hsteps

end Build

open Build

/-! Monologues -/

def Monologue.add (lines : List Line) (m : Monologue) : Monologue := ⟨m.lines ++ lines⟩

theorem Monologue.add_add (first others : List Line) (m : Monologue) :
    Monologue.add (first ++ others) m = Monologue.add others (Monologue.add first m) := by
  simp [Monologue.add]

theorem Monologue.denotes_say (line : Line) :
    Denotes (Monologue.say line) [] () (Monologue.add [line]) := denotes_update _

/-- The lines of a nested monologue are put where it stands, in their order. -/
theorem Monologue.denotes_monologue {body : Build Monologue Unit} {faults : List InvalidInput}
    {lines : List Line} (h : Denotes body faults () (Monologue.add lines)) :
    Denotes (Monologue.monologue body) faults () (Monologue.add lines) := by
  apply (h.within {}).bind (denotes_update _) (List.append_nil faults).symm
  intro m
  simp [Monologue.add]

namespace MonologueProgram

theorem denotes_sayCall (call : LineCall) :
    Denotes (do Monologue.say (← require call.line)) call.faults ()
      (Monologue.add [call.meant]) := by
  have hline : Denotes (require call.line : Build Monologue Line) call.faults call.meant id :=
    denotes_require call.line_eq_verdict
  exact hline.bind (Monologue.denotes_say call.meant) (List.append_nil _).symm fun _ => rfl

/-- A chain means its lines, and the first of its faults. -/
theorem denotes_sayAll (calls : List LineCall) :
    Denotes (sayAll calls) (calls.flatMap LineCall.faults) ()
      (Monologue.add (calls.map LineCall.meant)) := by
  induction calls with
  | nil =>
    intro s
    simp [sayAll, Monologue.add]
  | cons call calls ih =>
    have hline : Denotes (require call.line : Build Monologue Line) call.faults call.meant id :=
      denotes_require call.line_eq_verdict
    apply hline.bind _ rfl fun _ => rfl
    exact (Monologue.denotes_say call.meant).bind ih rfl (Monologue.add_add [call.meant] _)

/-- A monologue without caught failures says its lines. -/
theorem denotes_run (place : List Nat) (i : Nat) {program : MonologueProgram}
    (h : program.IsPlain) :
    Denotes (program.run place i) program.faults () (Monologue.add program.lines) := by
  induction program generalizing place i with
  | done =>
    intro s
    simp [run, Monologue.add, lines, faults]
  | say call isCaught next ih =>
    obtain ⟨rfl, hnext⟩ := h
    have hstep := (denotes_sayCall call).perform (place ++ [i]) "say" fun _ => .untracked
    exact hstep.bind (ih place (i + 1) hnext) rfl (Monologue.add_add [call.meant] _)
  | chain calls isCaught next ih =>
    obtain ⟨rfl, hnext⟩ := h
    have hstep := (denotes_sayAll calls).perform (place ++ [i]) "chain" fun _ => .untracked
    exact hstep.bind (ih place (i + 1) hnext) rfl (Monologue.add_add _ _)
  | monologue body isCaught next ihbody ih =>
    obtain ⟨rfl, hbody, hnext⟩ := h
    have hinner := Monologue.denotes_monologue (ihbody (place ++ [i]) 0 hbody)
    have hstep := hinner.perform (place ++ [i]) "monologue" fun _ => .untracked
    exact hstep.bind (ih place (i + 1) hnext) rfl (Monologue.add_add _ _)
  | fail message isCaught next => exact h.elim

end MonologueProgram

/-! Dialogue -/

def Dialogue.add (lines : List Line) (d : Dialogue) : Dialogue := ⟨d.lines ++ lines⟩

theorem Dialogue.denotes_narrate (text : String) :
    Denotes (Dialogue.narrate text) (emptyFaults text .dialogueText) ()
      (Dialogue.add [⟨"narrator", text, none⟩]) := by
  have hline := speakWithImage_eq_verdict Speaker.narrator text ""
  exact (denotes_require hline).bind (denotes_update _) (List.append_nil _).symm fun _ => rfl

theorem Dialogue.denotes_monologue {body : Build Monologue Unit} {faults : List InvalidInput}
    {lines : List Line} (h : Denotes body faults () (Monologue.add lines)) :
    Denotes (Dialogue.monologue body) faults () (Dialogue.add lines) := by
  apply (h.within {}).bind _ (List.append_nil faults).symm fun _ => rfl
  apply (denotes_log _).bind (denotes_update _) rfl
  intro d
  simp [Dialogue.add, Monologue.add]

namespace DialogueAction

/-- A plain step of a dialogue puts its lines behind those there are. -/
theorem denotes_run (place : List Nat) (action : DialogueAction) (h : action.IsPlain) :
    Denotes (action.run place) action.faults () (Dialogue.add action.lines) := by
  cases action with
  | line call =>
    have hline : Denotes (require call.line : Build Dialogue Line) call.faults call.meant id :=
      denotes_require call.line_eq_verdict
    exact hline.bind (denotes_update _) (List.append_nil _).symm fun _ => rfl
  | narrate text =>
    have htext := denotes_require (β := Dialogue) (textOf_eq_verdict text)
    exact htext.bind (Dialogue.denotes_narrate (meantText text)) rfl fun _ => rfl
  | monologue body => exact Dialogue.denotes_monologue (body.denotes_run place 0 h)
  | fail message => exact h.elim

/-- A plain program of a dialogue puts all its lines behind those there are, and fails with its
first fault. -/
theorem denotes_runAll (place : List Nat) {steps : DialogueProgram}
    (h : AllPlain DialogueAction.IsPlain steps) :
    Denotes (runAll place steps) (collect faults steps) ()
      (Dialogue.add (collect lines steps)) :=
  denotes_performAll_add (by simp [Dialogue.add]) (by simp [Dialogue.add]) denotes_run h

end DialogueAction

/-! Choices -/

def Choices.add (choices : List Choice) (b : Choices) : Choices := ⟨b.choices ++ choices⟩

/-- An empty name comes before all faults in the dialogue of the choice. -/
theorem Choices.denotes_option {name : String} {body : Build Dialogue Unit}
    {faults : List InvalidInput} {lines : List Line}
    (h : Denotes body faults () (Dialogue.add lines)) :
    Denotes (Choices.option name body) (emptyFaults name .optionName ++ faults) ()
      (Choices.add [⟨name, lines⟩]) := by
  have hname := denotes_require (β := Choices) (requireNonEmpty_eq_verdict name .optionName)
  apply hname.bind _ rfl fun _ => rfl
  apply (h.within {}).bind _ (List.append_nil faults).symm fun _ => rfl
  apply (denotes_log _).bind (denotes_update _) rfl
  intro b
  simp [Choices.add, Dialogue.add]

namespace ChoicesAction

theorem denotes_run (place : List Nat) (action : ChoicesAction) (h : action.IsPlain) :
    Denotes (action.run place) action.faults () (Choices.add action.choices) := by
  cases action with
  | option name body => exact Choices.denotes_option (DialogueAction.denotes_runAll place h)
  | fail message => exact h.elim

theorem denotes_runAll (place : List Nat) {steps : ChoicesProgram}
    (h : AllPlain ChoicesAction.IsPlain steps) :
    Denotes (runAll place steps) (collect faults steps) ()
      (Choices.add (collect choices steps)) :=
  denotes_performAll_add (by simp [Choices.add]) (by simp [Choices.add]) denotes_run h

end ChoicesAction

/-! Parts -/

namespace Parts

def add (parts : List Part) (b : Parts) : Parts := ⟨b.parts ++ parts⟩

theorem denotes_append (part : Part) : Denotes (append part) [] () (add [part]) :=
  fun _ => rfl

theorem denotes_dialogue {body : Build Dialogue Unit} {faults : List InvalidInput}
    {lines : List Line} (h : Denotes body faults () (Dialogue.add lines)) :
    Denotes (Parts.dialogue body) faults () (add [.dialogue lines]) := by
  apply (h.within {}).bind (denotes_append _) (List.append_nil faults).symm
  intro b
  simp [Dialogue.add]

/-- A branch means one part, with the choices that its body means. -/
theorem denotes_branchWith {waitForAll : Bool} {body : Build Choices Unit}
    {faults : List InvalidInput} {choices : List Choice}
    (h : Denotes body faults () (Choices.add choices)) :
    Denotes (Parts.branchWith waitForAll body) faults () (add [.branch choices waitForAll]) := by
  apply (h.within {}).bind (denotes_append _) (List.append_nil faults).symm
  intro b
  simp [Choices.add]

/-- The two kinds of image changes differ in the path that they check and set. -/
theorem denotes_imageChange (path : String) (argument : Argument) (change : ImageChange) :
    Denotes (do require (requireNonEmpty path argument); append (.imageChange change))
      (emptyFaults path argument) () (add [.imageChange change]) := by
  have hpath := denotes_require (β := Parts) (requireNonEmpty_eq_verdict path argument)
  exact hpath.bind (denotes_append _) (List.append_nil _).symm fun _ => rfl

end Parts

namespace PartsAction

/-- A plain step puts its parts behind those there are. -/
theorem denotes_run (place : List Nat) (action : PartsAction) (h : action.IsPlain) :
    Denotes (action.run place) action.faults () (Parts.add action.parts) := by
  cases action with
  | dialogue body => exact Parts.denotes_dialogue (DialogueAction.denotes_runAll place h)
  | branch body => exact Parts.denotes_branchWith (ChoicesAction.denotes_runAll place h)
  | branchWith waitForAll body =>
    exact Parts.denotes_branchWith (ChoicesAction.denotes_runAll place h)
  | background path => exact Parts.denotes_imageChange path .backgroundPath ⟨path, ""⟩
  | sprite path => exact Parts.denotes_imageChange path .spritePath ⟨"", path⟩
  | fail message => exact h.elim

theorem denotes_runAll (place : List Nat) {steps : PartsProgram}
    (h : AllPlain PartsAction.IsPlain steps) :
    Denotes (runAll place steps) (collect faults steps) () (Parts.add (collect parts steps)) :=
  denotes_performAll_add (by simp [Parts.add]) (by simp [Parts.add]) denotes_run h

end PartsAction

/-! Scenes -/

namespace Stage

def mapScene (f : Scene → Scene) (stage : Stage) : Stage := { stage with scene := f stage.scene }

theorem denotes_updateScene (f : Scene → Scene) :
    Denotes (Stage.updateScene f) [] () (mapScene f) := fun _ => rfl

/-- The parts are replaced, whatever they were. -/
theorem denotes_parts {body : Build Parts Unit} {faults : List InvalidInput} {parts : List Part}
    (h : Denotes body faults () (Parts.add parts)) :
    Denotes (Stage.parts body) faults () (mapScene fun scene => { scene with parts }) := by
  have hupdate := denotes_updateScene fun scene => { scene with parts }
  apply (h.within {}).bind (g := mapScene fun scene => { scene with parts }) _
    (List.append_nil faults).symm fun _ => rfl
  have hlog (record : Record) : Denotes
      (do log record; Stage.updateScene fun scene => { scene with parts }) [] ()
      (mapScene fun scene => { scene with parts }) :=
    (denotes_log record).bind hupdate rfl fun _ => rfl
  have hinner : (Parts.add parts {}).parts = parts := by simp [Parts.add]
  intro s
  rw [outcome_bind_of_ok (show built s = .ok s.built s from rfl)]
  dsimp only
  rw [hinner]
  split
  · exact hupdate s
  · exact hlog _ s

end Stage

namespace SceneAction

def effect : SceneAction → Scene → Scene
  | .version number, scene => scene.withVersion number
  | .output path, scene => scene.withOutput path
  | .parts body, scene => { scene with parts := collect PartsAction.parts body }
  | _, scene => scene

/-- A plain step has its effect on the scene whatever scene there was. -/
theorem denotes_run (place : List Nat) (action : SceneAction) (h : action.IsPlain) :
    Denotes (action.run place) action.faults () (Stage.mapScene action.effect) := by
  cases action with
  | version number => exact Stage.denotes_updateScene (effect (.version number))
  | output path => exact Stage.denotes_updateScene (effect (.output path))
  | parts body => exact Stage.denotes_parts (PartsAction.denotes_runAll place h)
  | snapshot => exact h.elim
  | write => exact h.elim
  | writeWith source writer => exact h.elim
  | parse source => exact h.elim
  | fail message => exact h.elim

end SceneAction

theorem collect_snoc {α γ : Type} (contribution : α → List γ) (steps : List (Step α))
    (step : Step α) :
    collect contribution (steps ++ [step]) =
      collect contribution steps ++ contribution step.action := by
  simp [collect]

theorem Stage.foldl_mapScene {α : Type} (effect : α → Scene → Scene) (steps : List (Step α))
    (stage : Stage) :
    steps.foldl (fun stage step => stage.mapScene (effect step.action)) stage =
      stage.mapScene fun scene =>
        steps.foldl (fun scene step => effect step.action scene) scene := by
  induction steps generalizing stage with
  | nil => rfl
  | cons step steps ih =>
    rw [List.foldl_cons, ih]
    rfl

namespace SceneProgram

/-- On a blank scene the effects of the steps leave the last of each kind. -/
theorem foldl_effect (steps : SceneProgram) :
    steps.foldl (fun scene step => step.action.effect scene) {} = steps.meant := by
  induction steps using List.reverseRecOn with
  | nil => rfl
  | append_singleton steps step ih =>
    rw [List.foldl_append, ih]
    simp only [List.foldl_cons, List.foldl_nil, meant, collect_snoc]
    cases step.action with
    | version number => simp [SceneAction.effect, SceneAction.versions, SceneAction.bodies,
        SceneAction.outputs, Scene.withVersion]
    | output path => simp [SceneAction.effect, SceneAction.versions, SceneAction.bodies,
        SceneAction.outputs, Scene.withOutput, Option.filter]
    | parts body => simp [SceneAction.effect, SceneAction.versions, SceneAction.bodies,
        SceneAction.outputs]
    | _ => simp [SceneAction.effect, SceneAction.versions, SceneAction.bodies, SceneAction.outputs]

/-- The effects of the steps follow one another, and no other state is carried along. -/
theorem denotes_runAll {steps : SceneProgram} (h : AllPlain SceneAction.IsPlain steps) :
    Denotes (SceneAction.runAll steps) (collect SceneAction.faults steps) ()
      (Stage.mapScene fun scene =>
        steps.foldl (fun scene step => step.action.effect scene) scene) := by
  have hfold := funext (Stage.foldl_mapScene SceneAction.effect steps)
  rw [← hfold]
  exact denotes_performAll SceneAction.denotes_run h

/-- A program without caught failures succeeds exactly when no argument is at fault. It builds what
it means then, in a world that it leaves alone, and otherwise fails with the first fault. -/
theorem runAll_blank {steps : SceneProgram} (h : AllPlain SceneAction.IsPlain steps)
    (world : World) :
    (((SceneAction.runAll steps).outcome ⟨{ world }, []⟩).1 = .ok () ↔
        collect SceneAction.faults steps = []) ∧
      (collect SceneAction.faults steps = [] →
        ((SceneAction.runAll steps).outcome ⟨{ world }, []⟩).2 = ⟨steps.meant, world⟩) ∧
      ∀ fault others, collect SceneAction.faults steps = fault :: others →
        ((SceneAction.runAll steps).outcome ⟨{ world }, []⟩).1 = .error (.invalidInput fault) := by
  have hrun := denotes_runAll h ⟨{ world }, []⟩
  cases hfaults : collect SceneAction.faults steps with
  | nil =>
    rw [hfaults] at hrun
    have hmeant := congrArg Prod.snd hrun
    simp only [Stage.mapScene, foldl_effect] at hmeant
    exact ⟨⟨fun _ => rfl, fun _ => congrArg Prod.fst hrun⟩, fun _ => hmeant, by simp⟩
  | cons fault others =>
    rw [hfaults] at hrun
    refine ⟨⟨fun hok => ?_, by simp⟩, by simp, ?_⟩
    · rw [hrun] at hok
      simp at hok
    · intro fault' others' heq
      obtain ⟨rfl, rfl⟩ := List.cons.inj heq
      exact hrun

/-- A monologue in a monologue, and steps that later ones of their kind replace. -/
def nestedSteps : SceneProgram :=
  [⟨.version 3, false⟩, ⟨.output "a.json", false⟩, ⟨.parts [⟨.sprite "a.png", false⟩], false⟩,
    ⟨.parts [⟨.dialogue [⟨.narrate [.literal "1"], false⟩,
      ⟨.monologue (.say { text := [.literal "2"] } false (.monologue
        (.say { speaker := some "Ann", text := [.literal "3"] } false .done) false
        (.say { text := [.literal "4"] } false .done))), false⟩,
      ⟨.narrate [.literal "5"], false⟩], false⟩], false⟩,
    ⟨.version 12, false⟩, ⟨.output "", false⟩]

theorem runAll_nestedSteps :
    (SceneAction.runAll nestedSteps).outcome ⟨{}, []⟩ =
      (.ok (), ⟨⟨"12", [.dialogue [⟨"narrator", "1", none⟩, ⟨"narrator", "2", none⟩,
        ⟨"Ann", "3", none⟩, ⟨"narrator", "4", none⟩, ⟨"narrator", "5", none⟩]], none⟩, {}⟩) := by
  have hplain : AllPlain SceneAction.IsPlain nestedSteps := by
    simp [AllPlain, nestedSteps, SceneAction.IsPlain, PartsAction.IsPlain, DialogueAction.IsPlain,
      MonologueProgram.IsPlain]
  have hfaults : collect SceneAction.faults nestedSteps = [] := by decide +kernel
  obtain ⟨hok, hscene, _⟩ := runAll_blank hplain {}
  have hmeant : nestedSteps.meant = ⟨"12", [.dialogue [⟨"narrator", "1", none⟩,
      ⟨"narrator", "2", none⟩, ⟨"Ann", "3", none⟩, ⟨"narrator", "4", none⟩,
      ⟨"narrator", "5", none⟩]], none⟩ := by decide +kernel
  rw [← hmeant]
  exact Prod.ext (hok.mpr hfaults) (hscene hfaults)

end SceneProgram

end SceneScript
