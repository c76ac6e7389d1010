import SceneScript.Proofs.Build.Valid

/-!
The scenes that can come about at all, and their round trip through a document. A scene starts
blank or comes out of a document, and changes by steps of a program, each of which may fail, and
may hold nested scopes with failures caught in them.
-/
namespace SceneScript

open Build

/-- Reached by any steps, failed ones included, from a blank scene or from a parsed one. -/
inductive Scene.Reachable : Scene → Prop
  | blank : Scene.Reachable {}
  | parsed {source : String} {scene : Scene} (h : Scene.parse source = .ok scene) :
      Scene.Reachable scene
  | step {s : Session Stage} (h : Scene.Reachable s.built.scene) (place : List Nat)
      (action : SceneAction) : Scene.Reachable ((action.run place).outcome s).2.scene

namespace Scene.Reachable

/-- Whatever a step does, it leads from a reachable scene to a reachable one. -/
theorem maintains_run (place : List Nat) (action : SceneAction) :
    Maintains (fun stage : Stage => stage.scene.Reachable) (action.run place) fun _ => True :=
  fun _ hs => ⟨hs.step place action, fun _ _ => trivial⟩

theorem maintains_runAll (steps : SceneProgram) :
    Maintains (fun stage : Stage => stage.scene.Reachable) (SceneAction.runAll steps)
      fun _ => True :=
  maintains_performAll fun place step _ => maintains_run place step.action

/-- A reachable scene is well-formed. -/
theorem valid {scene : Scene} (h : scene.Reachable) : scene.Valid := by
  induction h with
  | blank => exact Scene.valid_blank
  | parsed hparse => exact Scene.valid_of_parse hparse
  | step _ place action ih => exact (SceneAction.maintains_run place action _ ih).1

/-- Both documents of a reachable scene are parsed as this scene, but for its output path. -/
theorem parse_documents {scene : Scene} (h : scene.Reachable) :
    Scene.parse scene.compact = .ok { scene with outputPath := none } ∧
      Scene.parse scene.pretty = .ok { scene with outputPath := none } :=
  ⟨h.valid.parse_compact, h.valid.parse_pretty⟩

/-- A speaker whose name is a key of a part, control characters, and a failure that is caught. -/
def oddSteps : SceneProgram :=
  [⟨.output "o.json", false⟩, ⟨.version 7, false⟩,
    ⟨.parts [⟨.dialogue [
        ⟨.line { speaker := some "kind", text := [.literal "\u0001\"\\é\n"], image := some "/" },
          false⟩,
        ⟨.narrate [], true⟩], false⟩,
      ⟨.branchWith true [⟨.option "name" [], false⟩], false⟩, ⟨.sprite "s.png", false⟩], false⟩]

def oddScene : Scene :=
  ⟨"7", [.dialogue [⟨"kind", "\u0001\"\\é\n", some "/"⟩], .branch [⟨"name", []⟩] true,
    .imageChange ⟨"", "s.png"⟩], some "o.json"⟩

theorem parse_oddScene :
    Scene.parse oddScene.compact = .ok { oddScene with outputPath := none } ∧
      Scene.parse oddScene.pretty = .ok { oddScene with outputPath := none } := by
  have hrun : ((SceneAction.runAll oddSteps).outcome ⟨{}, []⟩).2.scene = oddScene := by
    decide +kernel
  have hreachable : oddScene.Reachable := by
    rw [← hrun]
    exact ((maintains_runAll oddSteps) ⟨{}, []⟩ .blank).1
  exact hreachable.parse_documents

end Scene.Reachable

end SceneScript
