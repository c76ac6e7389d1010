import SceneScript.Proofs.Build.Valid

/-!
What can be seen while a program runs. A run is followed step by step and into every nested scope;
at each moment there is the scene as it is then, and the builders that are open, each with what it
holds. Everything that is held at any moment is well-formed, whichever failures are caught, and
until a document has replaced the scene it holds only what the builders can build.
-/
namespace SceneScript

open Build

/-- A builder whose scope has not closed yet. -/
inductive OpenBuilder where
  | parts (b : Parts)
  | choices (b : Choices)
  | dialogue (d : Dialogue)
  | monologue (m : Monologue)

/-- The innermost builder comes first. A moment knows whether the scene has come out of a document
before. -/
structure Moment where
  scene : Scene
  builders : List OpenBuilder
  isParsed : Bool

namespace Build

variable {α β γ : Type}

/-- Follows a run past one step: what is seen during it and behind it. An uncaught failure ends
the scope. -/
def followStep (view : β → γ) (during : List γ) (step : Build β Unit)
    (next : Session β → List γ) (s : Session β) : List γ :=
  during ++ match step s with
    | .ok _ t => next t
    | .error _ t => [view t.built]

def followAll (place : List Nat) (name : α → String) (progress : β → Progress)
    (run : List Nat → α → Build β Unit) (view : β → γ)
    (during : List Nat → α → Session β → List γ) : Nat → List (Step α) → Session β → List γ
  | _, [], s => [view s.built]
  | i, step :: steps, s =>
    view s.built :: followStep view (during (place ++ [i]) step.action s)
      (perform (place ++ [i]) (name step.action) progress step.isCaught
        (run (place ++ [i]) step.action))
      (followAll place name progress run view during (i + 1) steps) s

def inside (around : OpenBuilder) (moments : List (List OpenBuilder)) : List (List OpenBuilder) :=
  moments.map (· ++ [around])

end Build

namespace MonologueProgram

/-- A chain adds its lines one by one. -/
def chainMoments : List LineCall → Monologue → List (List OpenBuilder)
  | [], m => [[.monologue m]]
  | call :: calls, m =>
    [.monologue m] :: match call.line with
      | .ok line => chainMoments calls ⟨m.lines ++ [line]⟩
      | .error _ => []

def moments (place : List Nat) : Nat → MonologueProgram → Session Monologue →
    List (List OpenBuilder)
  | _, .done, s => [[.monologue s.built]]
  | i, .say call isCaught next, s =>
    [.monologue s.built] :: followStep (fun m => [.monologue m]) []
      (perform (place ++ [i]) "say" (fun _ => .untracked) isCaught
        (do Monologue.say (← require call.line)))
      (moments place (i + 1) next) s
  | i, .chain calls isCaught next, s =>
    [.monologue s.built] :: followStep (fun m => [.monologue m]) (chainMoments calls s.built)
      (perform (place ++ [i]) "chain" (fun _ => .untracked) isCaught (sayAll calls))
      (moments place (i + 1) next) s
  | i, .monologue body isCaught next, s =>
    [.monologue s.built] :: followStep (fun m => [.monologue m])
      (inside (.monologue s.built) (body.moments (place ++ [i]) 0 ⟨{}, s.journal⟩))
      (perform (place ++ [i]) "monologue" (fun _ => .untracked) isCaught
        (Monologue.monologue (body.run (place ++ [i]) 0)))
      (moments place (i + 1) next) s
  | i, .fail message isCaught next, s =>
    [.monologue s.built] :: followStep (fun m => [.monologue m]) []
      (perform (place ++ [i]) "fail" (fun _ => .untracked) isCaught (failWith message))
      (moments place (i + 1) next) s

end MonologueProgram

namespace DialogueAction

def during (place : List Nat) : DialogueAction → Session Dialogue → List (List OpenBuilder)
  | .monologue body, s => inside (.dialogue s.built) (body.moments place 0 ⟨{}, s.journal⟩)
  | _, _ => []

def moments (place : List Nat) (steps : DialogueProgram) (s : Session Dialogue) :
    List (List OpenBuilder) :=
  followAll place name progress run (fun d => [.dialogue d]) during 0 steps s

end DialogueAction

namespace ChoicesAction

/-- A choice without a name opens no scope. -/
def during (place : List Nat) : ChoicesAction → Session Choices → List (List OpenBuilder)
  | .option name body, s =>
    match requireNonEmpty name .optionName with
    | .ok _ => inside (.choices s.built) (DialogueAction.moments place body ⟨{}, s.journal⟩)
    | .error _ => []
  | .fail _, _ => []

def moments (place : List Nat) (steps : ChoicesProgram) (s : Session Choices) :
    List (List OpenBuilder) :=
  followAll place name progress run (fun b => [.choices b]) during 0 steps s

end ChoicesAction

namespace PartsAction

def during (place : List Nat) : PartsAction → Session Parts → List (List OpenBuilder)
  | .dialogue body, s =>
    inside (.parts s.built) (DialogueAction.moments place body ⟨{}, s.journal⟩)
  | .branch body, s => inside (.parts s.built) (ChoicesAction.moments place body ⟨{}, s.journal⟩)
  | .branchWith _ body, s =>
    inside (.parts s.built) (ChoicesAction.moments place body ⟨{}, s.journal⟩)
  | _, _ => []

def moments (place : List Nat) (steps : PartsProgram) (s : Session Parts) :
    List (List OpenBuilder) :=
  followAll place name progress run (fun b => [.parts b]) during 0 steps s

end PartsAction

namespace SceneAction

def during (place : List Nat) : SceneAction → Session Stage → List (List OpenBuilder)
  | .parts body, s => PartsAction.moments place body ⟨{}, s.journal⟩
  | _, _ => []

def replaces : SceneAction → Bool
  | .parse source => (Scene.parse source).isOk
  | _ => false

def moments : Nat → SceneProgram → Bool → Session Stage → List Moment
  | _, [], isParsed, s => [⟨s.built.scene, [], isParsed⟩]
  | i, step :: steps, isParsed, s =>
    let isParsedThen := isParsed || step.action.replaces
    ⟨s.built.scene, [], isParsed⟩ :: followStep (fun stage => ⟨stage.scene, [], isParsedThen⟩)
      ((step.action.during [i] s).map fun builders => ⟨s.built.scene, builders, isParsed⟩)
      (perform [i] (name step.action) progress step.isCaught (run [i] step.action))
      (moments (i + 1) steps isParsedThen) s

end SceneAction

/-! The last moment is what a run comes to -/

namespace Build

variable {α β γ : Type} {view : β → γ} {during : List γ} {step : Build β Unit}
  {next : Session β → List γ} {s : Session β}

/-- The last moment of a scope is the last behind its first step, or behind the failure of that
step. -/
theorem exists_getLast?_cons_followStep {isLast : γ → Prop} {before : γ}
    (herror : ∀ e t, step s = .error e t → isLast (view t.built))
    (hnext : ∀ t, step s = .ok () t → ∃ m, (next t).getLast? = some m ∧ isLast m) :
    ∃ m, (before :: followStep view during step next s).getLast? = some m ∧ isLast m := by
  unfold followStep
  rw [← List.cons_append]
  cases hstep : step s with
  | ok _ t =>
    obtain ⟨m, hlast, hm⟩ := hnext t hstep
    refine ⟨m, ?_, hm⟩
    rw [List.getLast?_append, hlast]
    rfl
  | error e t => exact ⟨view t.built, List.getLast?_concat, herror e t hstep⟩

end Build

/-- The last moment shows the scene as the run leaves it, with no scope open. -/
theorem SceneAction.exists_getLast?_moments (i : Nat) (steps : SceneProgram) (isParsed : Bool)
    (s : Session Stage) :
    ∃ m, (moments i steps isParsed s).getLast? = some m ∧
      m.scene = ((performAll [] name progress run i steps).outcome s).2.scene ∧
        m.builders = [] := by
  induction steps generalizing i isParsed s with
  | nil => exact ⟨_, rfl, rfl, rfl⟩
  | cons step steps ih =>
    have hall : performAll [] name progress run i (step :: steps) = (do
        perform [i] (name step.action) progress step.isCaught (run [i] step.action)
        performAll [] name progress run (i + 1) steps) := rfl
    rw [hall]
    apply exists_getLast?_cons_followStep
    · intro e t hstep
      rw [outcome_bind_of_error hstep]
      exact ⟨rfl, rfl⟩
    · intro t hstep
      rw [outcome_bind_of_ok hstep]
      exact ih (i + 1) _ t

/-! What is seen in builders -/

namespace Build

variable {α β γ : Type} {P : β → Prop} {good : γ → Prop} {view : β → γ}

/-- What holds before, during and behind a step holds at every moment. -/
theorem forall_mem_followStep (hview : ∀ b, P b → good (view b)) {during : List γ}
    (hduring : ∀ m ∈ during, good m) {step : Build β Unit} {Q : Unit → Prop}
    (hstep : Maintains P step Q) {next : Session β → List γ}
    (hnext : ∀ t, P t.built → ∀ m ∈ next t, good m) {s : Session β} (hs : P s.built) :
    ∀ m ∈ followStep view during step next s, good m := by
  have hbehind := (hstep s hs).1
  rw [followStep, List.forall_mem_append]
  refine ⟨hduring, ?_⟩
  cases hresult : step s with
  | ok _ t =>
    rw [outcome_eq_ok_iff.mpr ⟨t, hresult, rfl⟩] at hbehind
    exact hnext t hbehind
  | error e t =>
    rw [outcome_eq_error_iff.mpr ⟨t, hresult, rfl⟩] at hbehind
    exact List.forall_mem_singleton.mpr (hview _ hbehind)

/-- A property that the steps keep is seen at every moment, between the steps and during them. -/
theorem forall_mem_followAll (hview : ∀ b, P b → good (view b)) {place : List Nat}
    {name : α → String} {progress : β → Progress} {run : List Nat → α → Build β Unit}
    {during : List Nat → α → Session β → List γ} {Q : Unit → Prop}
    (hduring : ∀ place action s, P s.built → ∀ m ∈ during place action s, good m)
    (hrun : ∀ place action, Maintains P (run place action) Q) {i : Nat} {steps : List (Step α)}
    {s : Session β} (hs : P s.built) :
    ∀ m ∈ followAll place name progress run view during i steps s, good m := by
  induction steps generalizing i s with
  | nil => exact List.forall_mem_singleton.mpr (hview _ hs)
  | cons step steps ih =>
    have hbehind := forall_mem_followStep hview (hduring (place ++ [i]) step.action s hs)
      ((hrun (place ++ [i]) step.action).perform (place ++ [i]) (name step.action) progress
        step.isCaught) (fun t ht => ih (i := i + 1) ht) hs
    exact List.forall_mem_cons.mpr ⟨hview _ hs, hbehind⟩

end Build

/-- What an open builder holds is well-formed. Image changes in it are built, not parsed. -/
def OpenBuilder.Valid : OpenBuilder → Prop
  | .parts b => b.Valid ∧ b.SetsOnePicture
  | .choices b => b.Valid
  | .dialogue d => d.Valid
  | .monologue m => m.Valid

def AllValid (builders : List OpenBuilder) : Prop := ∀ builder ∈ builders, builder.Valid

theorem allValid_singleton {builder : OpenBuilder} (h : builder.Valid) : AllValid [builder] :=
  List.forall_mem_singleton.mpr h

theorem allValid_inside {around : OpenBuilder} (haround : around.Valid)
    {moments : List (List OpenBuilder)} (h : ∀ builders ∈ moments, AllValid builders) :
    ∀ builders ∈ Build.inside around moments, AllValid builders := by
  intro builders hbuilders
  obtain ⟨inner, hinner, rfl⟩ := List.mem_map.mp hbuilders
  exact List.forall_mem_append.mpr ⟨h inner hinner, allValid_singleton haround⟩

namespace MonologueProgram

/-- A chain that breaks off leaves lines that are all well-formed. -/
theorem allValid_chainMoments {calls : List LineCall} {m : Monologue} (hm : m.Valid) :
    ∀ builders ∈ chainMoments calls m, AllValid builders := by
  induction calls generalizing m with
  | nil => exact List.forall_mem_singleton.mpr (allValid_singleton hm)
  | cons call calls ih =>
    refine List.forall_mem_cons.mpr ⟨allValid_singleton hm, ?_⟩
    cases hline : call.line with
    | ok line => exact ih (forall_mem_snoc hm (LineCall.valid_of_line hline))
    | error fault => simp

/-- Every builder that is open in a monologue, in a nested one too, holds well-formed lines. -/
theorem allValid_moments (place : List Nat) (i : Nat) (program : MonologueProgram)
    (s : Session Monologue) (hs : s.built.Valid) :
    ∀ builders ∈ program.moments place i s, AllValid builders := by
  have hview (m : Monologue) (hm : m.Valid) : AllValid [.monologue m] := allValid_singleton hm
  induction program generalizing place i s with
  | done => exact List.forall_mem_singleton.mpr (hview _ hs)
  | say call isCaught next ih =>
    have hstep := (maintains_sayCall call).perform (place ++ [i]) "say"
      (fun _ => Progress.untracked) isCaught
    exact List.forall_mem_cons.mpr
      ⟨hview _ hs, forall_mem_followStep hview (by simp) hstep (ih place (i + 1)) hs⟩
  | chain calls isCaught next ih =>
    have hstep := (maintains_sayAll calls).perform (place ++ [i]) "chain"
      (fun _ => Progress.untracked) isCaught
    exact List.forall_mem_cons.mpr ⟨hview _ hs, forall_mem_followStep hview
      (allValid_chainMoments hs) hstep (ih place (i + 1)) hs⟩
  | monologue body isCaught next ihbody ih =>
    have hbody := Monologue.maintains_monologue (body.maintains_run (place ++ [i]) 0)
    have hstep := hbody.perform (place ++ [i]) "monologue" (fun _ => Progress.untracked) isCaught
    have hinner := ihbody (place ++ [i]) 0 ⟨{}, s.journal⟩ Monologue.valid_blank
    have haround : OpenBuilder.Valid (.monologue s.built) := hs
    exact List.forall_mem_cons.mpr ⟨hview _ hs, forall_mem_followStep hview
      (allValid_inside haround hinner) hstep (ih place (i + 1)) hs⟩
  | fail message isCaught next ih =>
    have hstep := (maintains_failWith (P := Monologue.Valid) message).perform (place ++ [i]) "fail"
      (fun _ => Progress.untracked) isCaught
    exact List.forall_mem_cons.mpr
      ⟨hview _ hs, forall_mem_followStep hview (by simp) hstep (ih place (i + 1)) hs⟩

end MonologueProgram

namespace DialogueAction

theorem allValid_during (place : List Nat) (action : DialogueAction) (s : Session Dialogue)
    (hs : s.built.Valid) : ∀ builders ∈ action.during place s, AllValid builders := by
  cases action with
  | monologue body =>
    have hinner := body.allValid_moments place 0 ⟨{}, s.journal⟩ Monologue.valid_blank
    have haround : OpenBuilder.Valid (.dialogue s.built) := hs
    exact allValid_inside haround hinner
  | _ => simp [during]

theorem allValid_moments (place : List Nat) (steps : DialogueProgram) (journal : List Event) :
    ∀ builders ∈ moments place steps ⟨{}, journal⟩, AllValid builders :=
  forall_mem_followAll (fun _ hd => allValid_singleton hd) allValid_during maintains_run
    Dialogue.valid_blank

end DialogueAction

namespace ChoicesAction

theorem allValid_during (place : List Nat) (action : ChoicesAction) (s : Session Choices)
    (hs : s.built.Valid) : ∀ builders ∈ action.during place s, AllValid builders := by
  cases action with
  | option name body =>
    have haround : OpenBuilder.Valid (.choices s.built) := hs
    rw [during]
    split
    · exact allValid_inside haround (DialogueAction.allValid_moments place body s.journal)
    · simp
  | fail message => simp [during]

theorem allValid_moments (place : List Nat) (steps : ChoicesProgram) (journal : List Event) :
    ∀ builders ∈ moments place steps ⟨{}, journal⟩, AllValid builders :=
  forall_mem_followAll (fun _ hb => allValid_singleton hb) allValid_during maintains_run
    Choices.valid_blank

end ChoicesAction

namespace PartsAction

theorem allValid_during (place : List Nat) (action : PartsAction) (s : Session Parts)
    (hs : s.built.Valid ∧ s.built.SetsOnePicture) :
    ∀ builders ∈ action.during place s, AllValid builders := by
  have haround : OpenBuilder.Valid (.parts s.built) := hs
  cases action with
  | dialogue body =>
    exact allValid_inside haround (DialogueAction.allValid_moments place body s.journal)
  | branch body =>
    exact allValid_inside haround (ChoicesAction.allValid_moments place body s.journal)
  | branchWith waitForAll body =>
    exact allValid_inside haround (ChoicesAction.allValid_moments place body s.journal)
  | _ => simp [during]

/-- Every builder that is open while parts are made is well-formed, down to the innermost. -/
theorem allValid_moments (place : List Nat) (steps : PartsProgram) (journal : List Event) :
    ∀ builders ∈ moments place steps ⟨{}, journal⟩, AllValid builders :=
  forall_mem_followAll (fun _ hb => allValid_singleton hb) allValid_during
    (fun place action => (maintains_run place action).and (maintains_setsOnePicture place action))
    ⟨Parts.valid_blank, Parts.setsOnePicture_blank⟩

end PartsAction

/-! What is seen in scenes -/

/-- A version as it is set by a builder, and parts as they are built. -/
structure Scene.Built (scene : Scene) : Prop where
  setsOnePicture : ∀ part ∈ scene.parts, part.SetsOnePicture
  version : ∃ n < 2 ^ 32, scene.version = toString n

theorem Scene.built_blank : ({} : Scene).Built :=
  ⟨by simp, 1, by decide, rfl⟩

namespace SceneAction

/-- The empty output path is never kept as a path. -/
theorem maintains_outputPath (place : List Nat) (action : SceneAction) :
    Maintains (fun stage : Stage => stage.scene.outputPath ≠ some "") (action.run place)
      fun _ => True := by
  refine maintains_scene (P := fun scene => scene.outputPath ≠ some "") Parts.valid_blank
    PartsAction.maintains_runAll (fun _ _ h => h) ?_ (fun _ _ h _ => h) place action ?_
  · intro scene path _
    by_cases hpath : path = "" <;> simp [Scene.withOutput, hpath]
  · intro source scene _ hscene
    rw [Scene.outputPath_of_parse hscene]
    simp

/-- A step that puts no document in the place of a built scene leaves a built one. -/
theorem maintains_built_scene (place : List Nat) {action : SceneAction}
    (h : action.replaces = false) :
    Maintains (fun stage : Stage => stage.scene.Built) (action.run place) fun _ => True := by
  refine maintains_scene Parts.setsOnePicture_blank PartsAction.maintains_setsOnePicture_runAll
    ?_ (fun _ _ hscene => ⟨hscene.1, hscene.2⟩) (fun _ _ hscene hinner => ⟨hinner, hscene.2⟩)
    place action ?_
  · intro scene number hscene
    exact ⟨hscene.1, number.toNat, number.toNat_lt, rfl⟩
  · intro source scene haction hscene
    simp [haction, replaces, hscene, Except.isOk, Except.toBool] at h

theorem allValid_during (place : List Nat) (action : SceneAction) (s : Session Stage) :
    ∀ builders ∈ action.during place s, AllValid builders := by
  cases action with
  | parts body => exact PartsAction.allValid_moments place body s.journal
  | _ => simp [during]

end SceneAction

structure Moment.Valid (moment : Moment) : Prop where
  scene : moment.scene.Valid
  outputPath : moment.scene.outputPath ≠ some ""
  builders : AllValid moment.builders
  built : moment.isParsed = false → moment.scene.Built

/-- From a well-formed scene on that has no empty output path, every moment of a run is well-formed.
-/
theorem SceneAction.valid_moments (i : Nat) (steps : SceneProgram) (isParsed : Bool)
    (s : Session Stage) (hscene : s.built.scene.Valid)
    (houtput : s.built.scene.outputPath ≠ some "")
    (hbuilt : isParsed = false → s.built.scene.Built) :
    ∀ moment ∈ moments i steps isParsed s, moment.Valid := by
  induction steps generalizing i isParsed s with
  | nil =>
    exact List.forall_mem_singleton.mpr ⟨hscene, houtput, by simp [AllValid], hbuilt⟩
  | cons step steps ih =>
    have hduring : ∀ moment ∈ (step.action.during [i] s).map fun builders =>
        (⟨s.built.scene, builders, isParsed⟩ : Moment), moment.Valid := by
      intro moment hmoment
      obtain ⟨builders, hbuilders, rfl⟩ := List.mem_map.mp hmoment
      exact ⟨hscene, houtput, allValid_during [i] step.action s builders hbuilders, hbuilt⟩
    -- Behind the step the scene may be one that was parsed.
    have hthen : Maintains (fun stage : Stage => (isParsed || step.action.replaces) = false →
        stage.scene.Built) (run [i] step.action) fun _ => True := by
      intro t ht
      cases hreplaces : step.action.replaces with
      | true => simp
      | false =>
        rw [hreplaces] at ht
        cases isParsed with
        | true => simp
        | false => exact ⟨fun _ => (maintains_built_scene [i] hreplaces t (ht rfl)).1, by simp⟩
    have hstep := ((maintains_run [i] step.action).and
      ((maintains_outputPath [i] step.action).and hthen)).perform [i] (name step.action) progress
        step.isCaught
    refine List.forall_mem_cons.mpr ⟨⟨hscene, houtput, by simp [AllValid], hbuilt⟩, ?_⟩
    apply forall_mem_followStep _ hduring hstep (fun t ht => ih (i + 1) _ t ht.1 ht.2.1 ht.2.2)
      ⟨hscene, houtput, fun h => hbuilt (Bool.or_eq_false_iff.mp h).1⟩
    intro stage hstage
    exact ⟨hstage.1, hstage.2.1, by simp [AllValid], hstage.2.2⟩

namespace SceneProgram

/-- All that is held at any moment of a run is well-formed, in open builders too. The last moment
is what the run comes to. -/
theorem valid_at_every_moment (steps : SceneProgram) (world : World) :
    (∃ last, (SceneAction.moments 0 steps false ⟨{ world }, []⟩).getLast? = some last ∧
        last.scene = ((SceneAction.runAll steps).outcome ⟨{ world }, []⟩).2.scene ∧
        last.builders = []) ∧
      ∀ moment ∈ SceneAction.moments 0 steps false ⟨{ world }, []⟩, moment.Valid :=
  ⟨SceneAction.exists_getLast?_moments 0 steps false ⟨{ world }, []⟩,
    SceneAction.valid_moments 0 steps false ⟨{ world }, []⟩ Scene.valid_blank (by simp)
      fun _ => Scene.built_blank⟩

/-- Four scopes inside each other, with a failure caught in the innermost. -/
def deepSteps : SceneProgram :=
  [⟨.version 7, false⟩,
    ⟨.parts [⟨.background "b.png", false⟩,
      ⟨.branch [⟨.option "Go" [⟨.monologue (.say { text := [.literal ""] } true
        (.say { speaker := some "Ann", text := [.literal "Hi"] } false .done)), false⟩], false⟩],
        false⟩], false⟩]

def deepMoment : Moment :=
  ⟨⟨"7", [], none⟩, [.monologue ⟨[⟨"Ann", "Hi", none⟩]⟩, .dialogue {}, .choices {},
    .parts ⟨[.imageChange ⟨"b.png", ""⟩]⟩], false⟩

theorem valid_deepMoment :
    deepMoment ∈ SceneAction.moments 0 deepSteps false ⟨{}, []⟩ ∧ deepMoment.Valid := by
  have hmem : deepMoment ∈ SceneAction.moments 0 deepSteps false ⟨{}, []⟩ :=
    List.mem_of_getElem? (i := 8) rfl
  exact ⟨hmem, (valid_at_every_moment deepSteps {}).2 deepMoment hmem⟩

end SceneProgram

end SceneScript
