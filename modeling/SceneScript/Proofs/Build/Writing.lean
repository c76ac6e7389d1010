import SceneScript.Proofs.Build.Atomic
import SceneScript.Proofs.Build.Journal
import SceneScript.Proofs.Build.Maintains

/-!
When a scene that is built is written, and what the writer gets. The steps of a program that do not
write leave the world alone and report nothing about writing, so all of this happens at the end, in
one call at most.
-/
namespace SceneScript

open Build

/-! Steps that do not write -/

namespace Stage

theorem logs_updateScene {R : Record → Prop} (f : Scene → Scene) : Logs R (updateScene f) :=
  logs_update _

theorem logs_parts (place : List Nat) (body : PartsProgram) :
    Logs Record.OfBuilder (Stage.parts (PartsAction.runAll place body)) := by
  have hbody := PartsAction.logs_runAll (R := Record.OfBuilder) (fun _ => trivial)
    (fun _ _ => trivial) (fun _ _ => trivial) place body
  apply (hbody.within {}).bind
  intro inner
  apply logs_built.bind
  intro stage
  dsimp only
  split
  · exact logs_updateScene _
  · exact (logs_log trivial).bind fun _ => logs_updateScene _

theorem logs_parse {R : Record → Prop} (source : String) : Logs R (Stage.parse source) := by
  unfold Stage.parse
  split
  · exact logs_updateScene _
  · exact logs_throw _

variable {world : World}

theorem maintains_world_updateScene (f : Scene → Scene) :
    Maintains (fun stage => stage.world = world) (updateScene f) fun _ => True :=
  maintains_update fun _ hworld => hworld

/-- Only writers change the world. -/
theorem maintains_world_parts (body : Build Parts Unit) :
    Maintains (fun stage => stage.world = world) (Stage.parts body) fun _ => True := by
  have hbody : Maintains (fun _ => True) body fun _ => True :=
    fun _ _ => ⟨trivial, fun _ _ => trivial⟩
  apply (hbody.within trivial).bind
  intro inner _
  apply maintains_built.bind
  intro stage _
  dsimp only
  split
  · exact maintains_world_updateScene _
  · exact (maintains_log _).bind fun _ _ => maintains_world_updateScene _

theorem maintains_world_parse (source : String) :
    Maintains (fun stage => stage.world = world) (Stage.parse source) fun _ => True := by
  unfold Stage.parse
  split
  · exact maintains_world_updateScene _
  · exact maintains_throw _ _

end Stage

namespace SceneAction

theorem logs_run (place : List Nat) {action : SceneAction} (h : ¬ action.Writes) :
    Logs Record.OfBuilder (action.run place) := by
  cases action with
  | version number => exact Stage.logs_updateScene (·.withVersion number)
  | output path => exact Stage.logs_updateScene (·.withOutput path)
  | parts body => exact Stage.logs_parts place body
  | snapshot => exact logs_built.bind fun stage => logs_snapshot stage.scene
  | write => exact absurd trivial h
  | writeWith source writer => exact absurd trivial h
  | parse source => exact Stage.logs_parse source
  | fail message => exact logs_failWith message

/-- A step that calls no writer leaves the world alone, even if it fails. -/
theorem maintains_world (world : World) (place : List Nat) {action : SceneAction}
    (h : ¬ action.Writes) :
    Maintains (fun stage => stage.world = world) (action.run place) fun _ => True := by
  cases action with
  | version number => exact Stage.maintains_world_updateScene (·.withVersion number)
  | output path => exact Stage.maintains_world_updateScene (·.withOutput path)
  | parts body => exact Stage.maintains_world_parts _
  | snapshot => exact maintains_built.bind fun _ _ => maintains_note _
  | write => exact absurd trivial h
  | writeWith source writer => exact absurd trivial h
  | parse source => exact Stage.maintains_world_parse source
  | fail message => exact maintains_failWith message

end SceneAction

/-! The write at the end -/

namespace Stage

variable {s : Session Stage} {writer : Writer} {config : WriteConfig}

/-- A scene with no output path is not handed to the writer. -/
theorem writeWith_of_none (h : s.built.scene.outputPath = none) :
    writeWith writer config s =
      .ok () { s with journal := s.journal ++ [.record .writeSkipped] } := by
  have hstage : built s = .ok s.built s := rfl
  rw [writeWith, bind_of_ok hstage, h]
  rfl

variable {path : String} {after : World}

/-- The writer is handed the path, the text for this configuration, and the configuration. -/
theorem writeWith_of_ok (h : s.built.scene.outputPath = some path)
    (hwriter : writer ⟨path, contentsFor config s.built.scene, config⟩ s.built.world =
      (.ok (), after)) :
    writeWith writer config s = .ok () ⟨{ s.built with world := after }, s.journal ++
      [.record (.written path (contentsFor config s.built.scene).utf8ByteSize)]⟩ := by
  have hstage : built s = .ok s.built s := rfl
  rw [writeWith, bind_of_ok hstage, h]
  dsimp only
  rw [hwriter]
  rfl

/-- A writer that fails may have changed the world. -/
theorem writeWith_of_error {fault : FileFault} (h : s.built.scene.outputPath = some path)
    (hwriter : writer ⟨path, contentsFor config s.built.scene, config⟩ s.built.world =
      (.error fault, after)) :
    writeWith writer config s =
      .error (.write path fault) ⟨{ s.built with world := after }, s.journal⟩ := by
  have hstage : built s = .ok s.built s := rfl
  rw [writeWith, bind_of_ok hstage, h]
  dsimp only
  rw [hwriter]
  rfl

end Stage

namespace Scene

/-- How building a scene may end, after which calls of the writer: the steps have failed, or there
is no place to write to, or the writer has succeeded or failed in its one call. -/
inductive BuildEnds (writer : Writer) (config : WriteConfig) (body : Build Stage Unit)
    (world : World) : List WriteCall → Outcome → Prop
  | failed {e : SceneError} {s : Session Stage} (hbody : body ⟨{ world }, []⟩ = .error e s) :
      BuildEnds writer config body world [] ⟨.error e, world, s.journal⟩
  | skipped {s : Session Stage} (hbody : body ⟨{ world }, []⟩ = .ok () s)
      (hpath : s.built.scene.outputPath = none) :
      BuildEnds writer config body world []
        ⟨.ok s.built.scene, world, s.journal ++ [.record .writeSkipped]⟩
  | written {s : Session Stage} {path contents : String} {after : World}
      (hbody : body ⟨{ world }, []⟩ = .ok () s) (hpath : s.built.scene.outputPath = some path)
      (hcontents : contents = if config.pretty then s.built.scene.pretty else s.built.scene.compact)
      (hwriter : writer ⟨path, contents, config⟩ world = (.ok (), after)) :
      BuildEnds writer config body world [⟨path, contents, config⟩]
        ⟨.ok s.built.scene, after, s.journal ++ [.record (.written path contents.toUTF8.size)]⟩
  | refused {s : Session Stage} {path contents : String} {fault : FileFault} {after : World}
      (hbody : body ⟨{ world }, []⟩ = .ok () s) (hpath : s.built.scene.outputPath = some path)
      (hcontents : contents = if config.pretty then s.built.scene.pretty else s.built.scene.compact)
      (hwriter : writer ⟨path, contents, config⟩ world = (.error fault, after)) :
      BuildEnds writer config body world [⟨path, contents, config⟩]
        ⟨.error (.write path fault), after, s.journal⟩

/-- A body that leaves the world alone ends in one of the ways there are, with the calls that belong
to it. -/
theorem exists_buildEnds {body : Build Stage Unit} {world : World}
    (hworld : (body.outcome ⟨{ world }, []⟩).2.world = world) (writer : Writer)
    (config : WriteConfig) :
    ∃ calls, BuildEnds writer config body world calls (buildWith writer config body world) := by
  cases hbody : body ⟨{ world }, []⟩ with
  | error e s =>
    rw [outcome_eq_error_iff.mpr ⟨s, hbody, rfl⟩] at hworld
    have hbuild : buildWith writer config body world = ⟨.error e, world, s.journal⟩ := by
      rw [buildWith, bind_of_error hbody]
      dsimp only
      rw [hworld]
    rw [hbuild]
    exact ⟨_, .failed hbody⟩
  | ok _ s =>
    rw [outcome_eq_ok_iff.mpr ⟨s, hbody, rfl⟩] at hworld
    cases hpath : s.built.scene.outputPath with
    | none =>
      have hbuild : buildWith writer config body world =
          ⟨.ok s.built.scene, world, s.journal ++ [.record .writeSkipped]⟩ := by
        rw [buildWith, bind_of_ok hbody, Stage.writeWith_of_none hpath]
        dsimp only
        rw [hworld]
      rw [hbuild]
      exact ⟨_, .skipped hbody hpath⟩
    | some path =>
      cases hwriter : writer ⟨path, Stage.contentsFor config s.built.scene, config⟩ world with
      | mk result after =>
      cases result with
      | ok _ =>
        have hbuild : buildWith writer config body world = ⟨.ok s.built.scene, after, s.journal ++
            [.record (.written path (Stage.contentsFor config s.built.scene).utf8ByteSize)]⟩ := by
          rw [← hworld] at hwriter
          rw [buildWith, bind_of_ok hbody, Stage.writeWith_of_ok hpath hwriter]
        rw [hbuild]
        exact ⟨_, .written hbody hpath rfl hwriter⟩
      | error fault =>
        have hbuild : buildWith writer config body world =
            ⟨.error (.write path fault), after, s.journal⟩ := by
          rw [← hworld] at hwriter
          rw [buildWith, bind_of_ok hbody, Stage.writeWith_of_error hpath hwriter]
        rw [hbuild]
        exact ⟨_, .refused hbody hpath rfl hwriter⟩

/-- A writer that keeps a list of its calls has listed those with which a build has ended. -/
theorem BuildEnds.calls_listed {writer : Writer} {config : WriteConfig} {body : Build Stage Unit}
    {world : World} {calls : List WriteCall} {outcome : Outcome}
    (hwriter : ∀ call world, (writer call world).2.calls = world.calls)
    (h : BuildEnds writer.listed config body world calls outcome) :
    outcome.world.calls = world.calls ++ calls := by
  have hcalls {call : WriteCall} {result : Except FileFault Unit} {after : World}
      (hlisted : writer.listed call world = (result, after)) :
      after.calls = world.calls ++ [call] := by
    have hafter : after = (writer call { world with calls := world.calls ++ [call] }).2 :=
      (congrArg Prod.snd hlisted).symm
    rw [hafter, hwriter]
  cases h with
  | failed hbody => exact (List.append_nil _).symm
  | skipped hbody hpath => exact (List.append_nil _).symm
  | written hbody hpath hcontents hlisted => exact hcalls hlisted
  | refused hbody hpath hcontents hlisted => exact hcalls hlisted

end Scene

namespace SceneProgram

variable {steps : SceneProgram}

theorem logs_runAll (h : ∀ step ∈ steps, ¬ step.action.Writes) :
    Logs Record.OfBuilder (SceneAction.runAll steps) :=
  logs_performAll fun place step hstep => SceneAction.logs_run place (h step hstep)

/-- A program whose steps do not write reports nothing about writing, and when it is built, its
scene is written once or not at all. A writer that keeps a list of its calls lists no others. -/
theorem build_writes_once (h : ∀ step ∈ steps, ¬ step.action.Writes) (config : WriteConfig)
    (world : World) :
    (∀ record, .record record ∈ (SceneAction.runAll steps).journal ⟨{ world }, []⟩ →
      record.OfBuilder) ∧
    (∀ writer : Writer, ∃ calls, Scene.BuildEnds writer config (SceneAction.runAll steps) world
      calls (steps.build (.given config) writer world)) ∧
    ∀ writer : Writer, (∀ call world, (writer call world).2.calls = world.calls) →
      ∃ calls, Scene.BuildEnds writer.listed config (SceneAction.runAll steps) world calls
          (steps.build (.given config) writer.listed world) ∧
        (steps.build (.given config) writer.listed world).world.calls = world.calls ++ calls := by
  have hmaintains : Maintains (fun stage => stage.world = world) (SceneAction.runAll steps)
      fun _ => True :=
    maintains_performAll fun place step hstep =>
      SceneAction.maintains_world world place (h step hstep)
  have hworld := (hmaintains ⟨{ world }, []⟩ rfl).1
  refine ⟨?_, ?_, ?_⟩
  · intro record hrecord
    obtain ⟨added, hadded, hrecords⟩ := logs_runAll h ⟨{ world }, []⟩
    rw [hadded] at hrecord
    exact hrecords record hrecord
  · intro writer
    exact Scene.exists_buildEnds hworld writer config
  · intro writer hwriter
    obtain ⟨calls, hends⟩ := Scene.exists_buildEnds hworld writer.listed config
    exact ⟨calls, hends, hends.calls_listed hwriter⟩

/-- An output path that is set, cleared and set again, and parts that fail and are caught. -/
def movedSteps : SceneProgram :=
  [⟨.output "a.json", false⟩, ⟨.output "", false⟩, ⟨.output "b.json", false⟩,
    ⟨.parts [⟨.background "b.png", false⟩, ⟨.sprite "", false⟩], true⟩,
    ⟨.parts [⟨.sprite "s.png", false⟩], false⟩]

def movedScene : Scene := ⟨"1", [.imageChange ⟨"", "s.png"⟩], some "b.json"⟩

/-- Here the writer fails in its one call. -/
theorem build_movedSteps :
    (movedSteps.build (.given {}) (Writer.failing .notText).listed {}).world.calls =
      [⟨"b.json", movedScene.pretty, {}⟩] := by
  have hsteps : ∀ step ∈ movedSteps, ¬ step.action.Writes := by
    simp [movedSteps, SceneAction.Writes]
  have hok : ((SceneAction.runAll movedSteps).outcome ⟨{}, []⟩).1.isOk = true := by
    decide +kernel
  have hscene : ((SceneAction.runAll movedSteps).outcome ⟨{}, []⟩).2.scene = movedScene := by
    decide +kernel
  obtain ⟨_, _, hlisted⟩ := build_writes_once hsteps {} {}
  obtain ⟨calls, hends, hcalls⟩ := hlisted (Writer.failing .notText) fun _ _ => rfl
  rw [hcalls, List.nil_append]
  generalize movedSteps.build (.given {}) (Writer.failing .notText).listed {} = outcome at hends
  cases hends with
  | failed hbody =>
    rw [outcome_eq_error_iff.mpr ⟨_, hbody, rfl⟩] at hok
    cases hok
  | skipped hbody hpath =>
    rw [outcome_eq_ok_iff.mpr ⟨_, hbody, rfl⟩] at hscene
    rw [hscene] at hpath
    cases hpath
  | written hbody hpath hcontents hwriter => cases hwriter
  | refused hbody hpath hcontents hwriter =>
    rw [outcome_eq_ok_iff.mpr ⟨_, hbody, rfl⟩] at hscene
    rw [hscene] at hpath hcontents
    rw [hcontents, ← Option.some.inj hpath]
    rfl

end SceneProgram

end SceneScript
