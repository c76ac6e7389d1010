import SceneScript.Lint
import SceneScript.Proofs.Build.Pruned
import SceneScript.Proofs.Build.Twins
import SceneScript.Proofs.Build.Writing
import SceneScript.Proofs.Disk.Emptied

/-!
Whether a branch waits for all its choices is kept in its flag and shows nowhere else. Programs that
differ in such flags only are run side by side: they fail alike and report alike, and what they
build differs in the flags alone, which are those of the calls.
-/
namespace SceneScript

open Build

/-! Flags left out -/

def Part.withoutFlag : Part → Part
  | .branch choices _ => .branch choices false
  | part => part

def Parts.withoutFlags (b : Parts) : List Part := b.parts.map Part.withoutFlag

def Scene.withoutFlags (scene : Scene) : Scene :=
  { scene with parts := scene.parts.map Part.withoutFlag }

/-- A branch that is made without a flag counts as one with the default. -/
def PartsAction.withoutFlag : PartsAction → PartsAction
  | .branch body => .branchWith false body
  | .branchWith _ body => .branchWith false body
  | action => action

def PartsProgram.withoutFlags (steps : PartsProgram) : PartsProgram :=
  steps.map fun step => { step with action := step.action.withoutFlag }

def SceneAction.withoutFlags : SceneAction → SceneAction
  | .parts body => .parts body.withoutFlags
  | action => action

def SceneProgram.withoutFlags (steps : SceneProgram) : SceneProgram :=
  steps.map fun step => { step with action := step.action.withoutFlags }

/-! Writers that do not look at what they write -/

def World.emptied (world : World) : World where
  disk := world.disk.emptied
  calls := world.calls.map fun call => { call with contents := "" }

/-- Neither the text that is to be written nor that of other files matters to the writer, but for
what it leaves in them. -/
def Writer.IgnoresContents (writer : Writer) : Prop :=
  ∀ path config contents contents' (world world' : World), world.emptied = world'.emptied →
    (writer ⟨path, contents, config⟩ world).1 = (writer ⟨path, contents', config⟩ world').1 ∧
      (writer ⟨path, contents, config⟩ world).2.emptied =
        (writer ⟨path, contents', config⟩ world').2.emptied

namespace Writer

theorem ignoresContents_files : IgnoresContents files := by
  intro path config contents contents' world world' hworld
  obtain ⟨hdisk, hcalls⟩ := World.mk.inj hworld
  have hwrite := world.disk.writeFile_emptied path contents.toUTF8 config.createParentDirs
  have hwrite' := world'.disk.writeFile_emptied path contents'.toUTF8 config.createParentDirs
  rw [hdisk, hwrite'] at hwrite
  obtain ⟨hresult, hleft⟩ := Prod.mk.inj hwrite
  exact ⟨hresult.symm, congrArg₂ World.mk hleft.symm hcalls⟩

theorem ignoresContents_failing (fault : FileFault) : IgnoresContents (failing fault) :=
  fun _ _ _ _ _ _ hworld => ⟨rfl, hworld⟩

/-- That the call is listed with its text does not make the writer look at it. -/
theorem IgnoresContents.listed {writer : Writer} (h : writer.IgnoresContents) :
    writer.listed.IgnoresContents := by
  intro path config contents contents' world world' hworld
  apply h
  obtain ⟨hdisk, hcalls⟩ := World.mk.inj hworld
  simp only [World.emptied, List.map_append, hdisk, hcalls]
  rfl

end Writer

/-- Every writer that a step calls is one that does not look at what it writes. -/
def SceneAction.WritesBlindly : SceneAction → Prop
  | .writeWith _ writer => writer.IgnoresContents
  | _ => True

/-! Runs with and without flags -/

theorem Part.kind_withoutFlag (part : Part) : part.withoutFlag.kind = part.kind := by
  cases part <;> rfl

namespace Parts

theorem twins_append {part other : Part} (h : part.withoutFlag = other.withoutFlag) :
    Twins Parts.withoutFlags (append part) (append other) := by
  intro s t hst
  have hparts : s.built.parts.map Part.withoutFlag = t.built.parts.map Part.withoutFlag := hst.built
  have hlength : s.built.parts.length = t.built.parts.length := by
    simpa using congrArg List.length hparts
  have hkind : part.kind = other.kind := by
    rw [← part.kind_withoutFlag, h, other.kind_withoutFlag]
  have happend (part : Part) (s : Session Parts) : append part s =
      .ok () ⟨⟨s.built.parts ++ [part]⟩,
        s.journal ++ [.record (.appending part.kind (s.built.parts.length + 1))]⟩ := rfl
  rw [happend, happend, hkind, hlength]
  refine .ok ⟨?_, ?_⟩
  · simp [withoutFlags, hparts, h]
  · rw [reported_append, reported_append, hst.journal]

/-- Up to flags, every branch might be made with the default one. -/
theorem twins_branchWith (waitForAll : Bool) (place : List Nat) (body : ChoicesProgram) :
    Twins Parts.withoutFlags (branchWith waitForAll (ChoicesAction.runAll place body))
      (branchWith false (ChoicesAction.runAll place body)) := by
  apply ((ChoicesAction.twins_runAll place body).within {}).bind
  intro inner
  exact twins_append rfl

end Parts

namespace PartsAction

theorem twins_withoutFlag (place : List Nat) (action : PartsAction) :
    Twins Parts.withoutFlags (action.run place) (action.withoutFlag.run place) := by
  cases action with
  | dialogue body =>
    apply ((DialogueAction.twins_runAll place body).within {}).bind
    intro inner
    exact Parts.twins_append rfl
  | branch body => exact Parts.twins_branchWith false place body
  | branchWith waitForAll body => exact Parts.twins_branchWith waitForAll place body
  | background path => exact (twins_require _).bind fun _ => Parts.twins_append rfl
  | sprite path => exact (twins_require _).bind fun _ => Parts.twins_append rfl
  | fail message => exact twins_failWith message

/-- A program of parts cannot be told from the one in which no call gives a flag. -/
theorem twins_withoutFlags (place : List Nat) (steps : PartsProgram) :
    Twins Parts.withoutFlags (runAll place steps) (runAll place steps.withoutFlags) := by
  apply twins_performAll
  rw [PartsProgram.withoutFlags, List.forall₂_map_right_iff, List.forall₂_same]
  intro step _
  exact ⟨rfl, fun place => twins_withoutFlag place step.action⟩

end PartsAction

namespace Stage

def withoutFlags (stage : Stage) : Scene × World := (stage.scene.withoutFlags, stage.world.emptied)

theorem twins_updateScene {f g : Scene → Scene}
    (h : ∀ scene other, scene.withoutFlags = other.withoutFlags →
      (f scene).withoutFlags = (g other).withoutFlags) :
    Twins Stage.withoutFlags (updateScene f) (updateScene g) := by
  apply twins_update
  intro stage other hstage
  obtain ⟨hscene, hworld⟩ := Prod.mk.inj hstage
  exact congrArg₂ Prod.mk (h _ _ hscene) hworld

theorem twins_updateScene_self {f : Scene → Scene}
    (h : ∀ scene, (f scene).withoutFlags = f scene.withoutFlags) :
    Twins Stage.withoutFlags (updateScene f) (updateScene f) := by
  apply twins_updateScene
  intro scene other hscene
  rw [h, h, hscene]

/-- Bodies that agree up to flags put parts into the scene that agree up to flags. -/
theorem twins_parts {body twin : Build Parts Unit} (h : Twins Parts.withoutFlags body twin) :
    Twins Stage.withoutFlags (Stage.parts body) (Stage.parts twin) := by
  intro s t hst
  obtain ⟨hstage, hjournal⟩ := hst
  obtain ⟨hscene, hworld⟩ := Prod.mk.inj hstage
  obtain ⟨hversion, hparts, hpath⟩ := Scene.mk.inj hscene
  have hlength : s.built.scene.parts.length = t.built.scene.parts.length := by
    simpa using congrArg List.length hparts
  have hempty : s.built.scene.parts.isEmpty = t.built.scene.parts.isEmpty := by
    simpa using congrArg List.isEmpty hparts
  have hblank : Alike Parts.withoutFlags ⟨{}, s.journal⟩ ⟨{}, t.journal⟩ := ⟨rfl, hjournal⟩
  obtain ⟨_, s', t', hs, ht, hresult⟩ | ⟨e, s', t', hs, ht, hresult⟩ := h.results hblank
  · rw [parts_of_ok hs, parts_of_ok ht]
    have hinner : s'.built.parts.map Part.withoutFlag = t'.built.parts.map Part.withoutFlag :=
      hresult.built
    refine .ok ⟨?_, ?_⟩
    · simp only [withoutFlags, Scene.withoutFlags, hversion, hinner, hpath, hworld]
    · rw [reported_append, reported_append, hresult.journal, hempty, hlength]
  · rw [parts_of_error hs, parts_of_error ht]
    exact .error ⟨hstage, hresult.journal⟩

/-- A writer that reads what it is to write could tell the flags. -/
theorem twins_writeWith {writer : Writer} (h : writer.IgnoresContents) (config : WriteConfig) :
    Twins Stage.withoutFlags (writeWith writer config) (writeWith writer config) := by
  intro s t hst
  obtain ⟨hstage, hjournal⟩ := hst
  obtain ⟨hscene, hworld⟩ := Prod.mk.inj hstage
  obtain ⟨_, _, hpath⟩ := Scene.mk.inj hscene
  cases hs : s.built.scene.outputPath with
  | none =>
    rw [writeWith_of_none hs, writeWith_of_none (hpath.symm.trans hs)]
    refine .ok ⟨hstage, ?_⟩
    rw [reported_append, reported_append, hjournal]
  | some path =>
    have ht := hpath.symm.trans hs
    obtain ⟨hresult, hafter⟩ := h path config (contentsFor config s.built.scene)
      (contentsFor config t.built.scene) s.built.world t.built.world hworld
    cases hws : writer ⟨path, contentsFor config s.built.scene, config⟩ s.built.world with
    | mk result after =>
    cases hwt : writer ⟨path, contentsFor config t.built.scene, config⟩ t.built.world with
    | mk result' after' =>
    rw [hws, hwt] at hresult hafter
    obtain rfl : result = result' := hresult
    have hleft : Stage.withoutFlags { s.built with world := after } =
        Stage.withoutFlags { t.built with world := after' } := congrArg₂ Prod.mk hscene hafter
    cases result with
    | ok _ =>
      rw [writeWith_of_ok hs hws, writeWith_of_ok ht hwt]
      refine .ok ⟨hleft, ?_⟩
      rw [reported_append, reported_append, hjournal]
      rfl
    | error fault =>
      rw [writeWith_of_error hs hws, writeWith_of_error ht hwt]
      exact .error ⟨hleft, hjournal⟩

theorem twins_parse (source : String) :
    Twins Stage.withoutFlags (Stage.parse source) (Stage.parse source) := by
  unfold Stage.parse
  split
  · exact twins_updateScene fun _ _ _ => rfl
  · exact twins_throw _

theorem twins_snapshot : Twins Stage.withoutFlags snapshot snapshot := by
  intro s t hst
  have hnote (s : Session Stage) :
      snapshot s = .ok () ⟨s.built, s.journal ++ [.snapshot s.built.scene]⟩ := rfl
  rw [hnote, hnote]
  refine .ok ⟨hst.built, ?_⟩
  rw [reported_append, reported_append, hst.journal]
  rfl

end Stage

namespace SceneAction

theorem twins_withoutFlags (place : List Nat) {action : SceneAction} (h : action.WritesBlindly) :
    Twins Stage.withoutFlags (action.run place) (action.withoutFlags.run place) := by
  cases action with
  | version number => exact Stage.twins_updateScene_self (f := (·.withVersion number)) fun _ => rfl
  | output path => exact Stage.twins_updateScene_self (f := (·.withOutput path)) fun _ => rfl
  | parts body => exact Stage.twins_parts (PartsAction.twins_withoutFlags place body)
  | snapshot => exact Stage.twins_snapshot
  | write => exact Stage.twins_writeWith Writer.ignoresContents_files {}
  | writeWith source writer =>
    change Twins Stage.withoutFlags (run place (.writeWith source writer))
      (run place (.writeWith source writer))
    rw [run]
    cases source.config with
    | ok config => exact Stage.twins_writeWith h config
    | error e => exact twins_throw e
  | parse source => exact Stage.twins_parse source
  | fail message => exact twins_failWith message

/-- A program cannot be told from the one in which no call gives a flag. -/
theorem twins_runAll_withoutFlags {steps : SceneProgram}
    (h : ∀ step ∈ steps, step.action.WritesBlindly) :
    Twins Stage.withoutFlags (runAll steps) (runAll steps.withoutFlags) := by
  apply twins_performAll
  rw [SceneProgram.withoutFlags, List.forall₂_map_right_iff, List.forall₂_same]
  intro step hstep
  exact ⟨rfl, fun place => twins_withoutFlags place (h step hstep)⟩

end SceneAction

/-! What shows of flags -/

namespace Json

def mapMember (key : String) (f : Json → Json) : Json → Json
  | .object members => .object (members.map fun m => (m.1, if m.1 = key then f m.2 else m.2))
  | json => json

def mapItems (f : Json → Json) : Json → Json
  | .array items => .array (items.map f)
  | json => json

def withoutFlag : Json → Json :=
  mapMember "options" (mapMember "waitForAll" fun _ => .string "false")

def withoutFlags : Json → Json := mapMember "parts" (mapItems withoutFlag)

end Json

/-- To unset the flag of a part is to change one member of its document. -/
theorem Part.toJson_withoutFlag (part : Part) :
    part.withoutFlag.toJson = part.toJson.withoutFlag := by
  cases part <;> rfl

/-- To unset all flags of a scene is to change this one member of each branch in its document. -/
theorem Scene.toJson_withoutFlags (scene : Scene) :
    scene.withoutFlags.toJson = scene.toJson.withoutFlags := by
  have hparts : (scene.parts.map Part.withoutFlag).map Part.toJson =
      (scene.parts.map Part.toJson).map Json.withoutFlag := by
    rw [List.map_map, List.map_map]
    exact List.map_congr_left fun part _ => part.toJson_withoutFlag
  simp only [Scene.toJson, Scene.withoutFlags, hparts]
  rfl

namespace Lint

theorem partProblems_withoutFlag (part : Part) :
    partProblems part.withoutFlag = partProblems part := by
  cases part <;> rfl

theorem partFindings_withoutFlags (number : Nat) (parts : List Part) :
    partFindings number (parts.map Part.withoutFlag) = partFindings number parts := by
  induction parts generalizing number with
  | nil => rfl
  | cons part parts ih =>
    rw [List.map_cons, partFindings, partFindings, partProblems_withoutFlag,
      part.kind_withoutFlag, ih]

/-- No check looks at a flag. -/
theorem warnings_withoutFlags (scene : Scene) : warnings scene.withoutFlags = warnings scene := by
  simp only [warnings, findings, Scene.withoutFlags, List.isEmpty_map, partFindings_withoutFlags]

end Lint

/-- Scenes that differ in flags at most. Their documents differ in nothing but the texts of these,
and checks find the same in both. -/
structure Scene.SameButFlags (scene other : Scene) : Prop where
  version : scene.version = other.version
  outputPath : scene.outputPath = other.outputPath
  parts : scene.parts.map Part.withoutFlag = other.parts.map Part.withoutFlag
  toJson : scene.toJson.withoutFlags = other.toJson.withoutFlags
  warnings : Lint.warnings scene = Lint.warnings other

/-- Scenes that are the same without their flags look the same to whatever does not read flags. -/
theorem Scene.sameButFlags_of_eq {scene other : Scene}
    (h : scene.withoutFlags = other.withoutFlags) : scene.SameButFlags other := by
  obtain ⟨hversion, hparts, hpath⟩ := Scene.mk.inj h
  refine ⟨hversion, hpath, hparts, ?_, ?_⟩
  · rw [← scene.toJson_withoutFlags, h, other.toJson_withoutFlags]
  · rw [← Lint.warnings_withoutFlags scene, h, Lint.warnings_withoutFlags]

/-! Flags of calls and parts -/

def Part.flag? : Part → Option Bool
  | .branch _ waitForAll => some waitForAll
  | _ => none

def Parts.flags (b : Parts) : List (Option Bool) := b.parts.map Part.flag?

namespace PartsAction

def flag? : PartsAction → Option Bool
  | .branch _ => some false
  | .branchWith waitForAll _ => some waitForAll
  | _ => none

/-- Leaving out steps inside a branch does not touch the flag of the branch. -/
theorem flag?_pruned (place : List Nat) (action : PartsAction) (s : Session Parts) :
    (action.pruned place s).flag? = action.flag? := by
  cases action <;> rfl

end PartsAction

/-- A call that succeeds adds one part, with this flag or none. -/
def AddsFlag (flag : Option Bool) (op : Build Parts Unit) : Prop :=
  ∀ s t, op s = .ok () t → t.built.flags = s.built.flags ++ [flag]

/-- Whatever the part is made of, it has the flag that the call gives. -/
theorem addsFlag_append {α : Type} {op : Build Parts α} (h : Quiet op) {part : α → Part}
    {flag : Option Bool} (hflag : ∀ a, (part a).flag? = flag) :
    AddsFlag flag (do Parts.append (part (← op))) := by
  intro s t hrun
  have hbuilt := h s
  cases hop : op s with
  | error e u =>
    rw [bind_of_error hop] at hrun
    cases hrun
  | ok a u =>
    rw [outcome_eq_ok_iff.mpr ⟨u, hop, rfl⟩] at hbuilt
    rw [bind_of_ok hop] at hrun
    obtain ⟨_, rfl⟩ := EStateM.Result.ok.inj hrun
    rw [← hflag a, ← show u.built = s.built from hbuilt]
    exact List.map_append

namespace PartsAction

/-- The part that a call adds has the flag of the call. -/
theorem addsFlag_run (place : List Nat) (action : PartsAction) :
    AddsFlag action.flag? (action.run place) := by
  cases action with
  | dialogue body =>
    apply addsFlag_append (quiet_within _ _)
    exact fun _ => rfl
  | branch body =>
    apply addsFlag_append (quiet_within _ _)
    exact fun _ => rfl
  | branchWith waitForAll body =>
    apply addsFlag_append (quiet_within _ _)
    exact fun _ => rfl
  | background path =>
    apply addsFlag_append (quiet_require _)
    exact fun _ => rfl
  | sprite path =>
    apply addsFlag_append (quiet_require _)
    exact fun _ => rfl
  | fail message => exact nofun

/-- The flags in a scope are those of the calls that have succeeded, in their order. -/
theorem flags_of_performAll {place : List Nat} {i : Nat} {steps : PartsProgram}
    {s t : Session Parts} (h : performAll place name progress run i steps s = .ok () t) :
    t.built.flags = s.built.flags ++
      (pruneAll place name progress run pruned i steps s).map (·.action.flag?) := by
  induction steps generalizing i s with
  | nil =>
    obtain ⟨_, rfl⟩ := EStateM.Result.ok.inj h
    exact (List.append_nil _).symm
  | cons step steps ih =>
    rw [performAll] at h
    cases hperform : perform (place ++ [i]) (name step.action) progress step.isCaught
        (run (place ++ [i]) step.action) s with
    | error e u =>
      rw [bind_of_error hperform] at h
      cases h
    | ok _ u =>
      rw [bind_of_ok hperform] at h
      have hbuilt := congrArg Prod.snd (outcome_perform (place ++ [i]) (name step.action) progress
        step.isCaught (run (place ++ [i]) step.action) s)
      rw [outcome_eq_ok_iff.mpr ⟨u, hperform, rfl⟩] at hbuilt
      rw [ih h, pruneAll]
      cases haction : run (place ++ [i]) step.action s with
      | ok _ v =>
        rw [outcome_eq_ok_iff.mpr ⟨v, haction, rfl⟩] at hbuilt
        rw [pruneStep_of_ok hperform haction, show u.built = v.built from hbuilt,
          addsFlag_run _ _ _ _ haction, List.map_cons, flag?_pruned, List.append_assoc]
        rfl
      | error e v =>
        have hatomic := atomic_run (place ++ [i]) step.action s e
        rw [outcome_eq_error_iff.mpr ⟨v, haction, rfl⟩] at hatomic hbuilt
        rw [pruneStep_of_caught hperform haction, show u.built = v.built from hbuilt,
          show v.built = s.built from hatomic rfl]
        rfl

end PartsAction

/-- When a scope of parts has ended well, each branch in the scene has the flag of its own call. -/
theorem Stage.flags_of_parts {place : List Nat} {steps : PartsProgram} {s t : Session Stage}
    (h : Stage.parts (PartsAction.runAll place steps) s = .ok () t) :
    t.built.scene.parts.map Part.flag? =
      (PartsAction.prunedAll place steps ⟨{}, s.journal⟩).map (·.action.flag?) := by
  cases hbody : PartsAction.runAll place steps ⟨{}, s.journal⟩ with
  | error e u =>
    rw [Stage.parts_of_error hbody] at h
    cases h
  | ok _ u =>
    rw [Stage.parts_of_ok hbody] at h
    obtain ⟨_, rfl⟩ := EStateM.Result.ok.inj h
    exact PartsAction.flags_of_performAll hbody

theorem SceneAction.writesBlindly_withoutFlags (action : SceneAction) :
    action.withoutFlags.WritesBlindly ↔ action.WritesBlindly := by
  cases action <;> rfl

namespace SceneProgram

variable {steps others : SceneProgram}

theorem writesBlindly_of_eq (h : steps.withoutFlags = others.withoutFlags)
    (hwrites : ∀ step ∈ steps, step.action.WritesBlindly) :
    ∀ step ∈ others, step.action.WritesBlindly := by
  intro step hstep
  have hmem : { step with action := step.action.withoutFlags } ∈ steps.withoutFlags := by
    rw [h]
    exact List.mem_map_of_mem hstep
  obtain ⟨twin, htwin, heq⟩ := List.mem_map.mp hmem
  have haction : twin.action.withoutFlags = step.action.withoutFlags := congrArg Step.action heq
  rw [← SceneAction.writesBlindly_withoutFlags, ← haction,
    SceneAction.writesBlindly_withoutFlags]
  exact hwrites twin htwin

/-- Programs that differ in flags only cannot be told apart by anything but flags. -/
theorem twins_runAll (h : steps.withoutFlags = others.withoutFlags)
    (hwrites : ∀ step ∈ steps, step.action.WritesBlindly) :
    Twins Stage.withoutFlags (SceneAction.runAll steps) (SceneAction.runAll others) := by
  have hsteps := SceneAction.twins_runAll_withoutFlags hwrites
  have hothers := SceneAction.twins_runAll_withoutFlags (writesBlindly_of_eq h hwrites)
  rw [h] at hsteps
  exact hsteps.trans hothers.symm

/-- Programs that differ in the flags of branches only, and whose writers do not look at what they
write, end alike: with the same result, with scenes that differ in flags only, with the same files
and calls of writers but for the texts, and with the same reports but for the lengths of these. The
flags of the branches in a scene are those of the calls that have made them. -/
theorem flags_show_nowhere_else (h : steps.withoutFlags = others.withoutFlags)
    (hwrites : ∀ step ∈ steps, step.action.WritesBlindly) (s : Session Stage) :
    ((SceneAction.runAll steps).outcome s).1 = ((SceneAction.runAll others).outcome s).1 ∧
    ((SceneAction.runAll steps).outcome s).2.scene.SameButFlags
      ((SceneAction.runAll others).outcome s).2.scene ∧
    ((SceneAction.runAll steps).outcome s).2.world.emptied =
      ((SceneAction.runAll others).outcome s).2.world.emptied ∧
    reported (·.level != .info) ((SceneAction.runAll steps).journal s) =
      reported (·.level != .info) ((SceneAction.runAll others).journal s) ∧
    ∀ (place : List Nat) (body : PartsProgram) (s t : Session Stage),
      Stage.parts (PartsAction.runAll place body) s = .ok () t →
        t.built.scene.parts.map Part.flag? =
          (PartsAction.prunedAll place body ⟨{}, s.journal⟩).map (·.action.flag?) := by
  obtain ⟨hresult, hstage, hjournal⟩ := (twins_runAll h hwrites).outcome (s := s) ⟨rfl, rfl⟩
  obtain ⟨hscene, hworld⟩ := Prod.mk.inj hstage
  exact ⟨hresult, Scene.sameButFlags_of_eq hscene, hworld, hjournal,
    fun _ _ _ _ hparts => Stage.flags_of_parts hparts⟩

/-- Branches with flags, one of which fails and is caught. -/
def waitingParts : PartsProgram :=
  [⟨.branchWith true [⟨.option "A" [], false⟩, ⟨.option "" [], true⟩], false⟩,
    ⟨.branchWith false [⟨.fail "no", false⟩], true⟩,
    ⟨.branch [⟨.option "A" [], false⟩, ⟨.option "A" [], false⟩], false⟩]

def freeParts : PartsProgram :=
  [⟨.branch [⟨.option "A" [], false⟩, ⟨.option "" [], true⟩], false⟩,
    ⟨.branchWith true [⟨.fail "no", false⟩], true⟩,
    ⟨.branchWith true [⟨.option "A" [], false⟩, ⟨.option "A" [], false⟩], false⟩]

def writingSteps (body : PartsProgram) : SceneProgram :=
  [⟨.output "o.json", false⟩, ⟨.parts body, false⟩,
    ⟨.writeWith (.given {}) (Writer.failing .notText).listed, true⟩]

def twoBranches (first second : Bool) : Scene :=
  ⟨"1", [.branch [⟨"A", []⟩] first, .branch [⟨"A", []⟩, ⟨"A", []⟩] second], some "o.json"⟩

theorem twoBranches_sameButFlags :
    (twoBranches true false).SameButFlags (twoBranches false true) ∧
      (PartsAction.prunedAll [1] waitingParts ⟨{}, []⟩).map (·.action.flag?) =
        [some true, some false] := by
  have hflags : (writingSteps waitingParts).withoutFlags =
      (writingSteps freeParts).withoutFlags := rfl
  have hwrites : ∀ step ∈ writingSteps waitingParts, step.action.WritesBlindly := by
    simp [writingSteps, SceneAction.WritesBlindly,
      (Writer.ignoresContents_failing .notText).listed]
  obtain ⟨_, hscene, _, _, hparts⟩ := flags_show_nowhere_else hflags hwrites ⟨{}, []⟩
  constructor
  · have hwaiting : ((SceneAction.runAll (writingSteps waitingParts)).outcome ⟨{}, []⟩).2.scene =
        twoBranches true false := by
      decide +kernel
    have hfree : ((SceneAction.runAll (writingSteps freeParts)).outcome ⟨{}, []⟩).2.scene =
        twoBranches false true := by
      decide +kernel
    rwa [hwaiting, hfree] at hscene
  · have hok : ((Stage.parts (PartsAction.runAll [1] waitingParts)).outcome ⟨{}, []⟩).1 =
        .ok () := by
      decide +kernel
    have hbuilt : ((Stage.parts (PartsAction.runAll [1] waitingParts)).outcome ⟨{}, []⟩).2.scene =
        { twoBranches true false with outputPath := none } := by
      decide +kernel
    cases hrun : Stage.parts (PartsAction.runAll [1] waitingParts) ⟨{}, []⟩ with
    | ok _ t =>
      rw [outcome, hrun] at hbuilt
      rw [← hparts [1] waitingParts ⟨{}, []⟩ t hrun, hbuilt]
      rfl
    | error e t =>
      rw [outcome, hrun] at hok
      cases hok

end SceneProgram

end SceneScript
