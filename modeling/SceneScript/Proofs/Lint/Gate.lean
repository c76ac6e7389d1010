import SceneScript.Proofs.Lint.Exact
import SceneScript.Tool.Linter

/-!
The linter as a gate. Whatever a file is, the program ends with exit code zero or one; it is zero
exactly for files that hold a scene, which must be sound as well if the check is strict. Files that
hold no scene are reported as errors, and for the others the report does not depend on how strict
the check is.
-/
namespace SceneScript

namespace Disk

/-- Bytes are text if they are the encoding of it. -/
theorem textOf_eq_ok_iff {bytes : ByteArray} {text : String} :
    textOf bytes = .ok text ↔ bytes = text.toUTF8 := by
  unfold textOf String.fromUTF8?
  by_cases hvalid : bytes.IsValidUTF8
  · rw [dif_pos hvalid]
    constructor
    · intro h
      cases h
      rfl
    · intro h
      subst h
      rfl
  · rw [dif_neg hvalid]
    constructor
    · intro h
      cases h
    · intro h
      subst h
      exact absurd text.isValidUTF8 hvalid

theorem textOf_eq_error {bytes : ByteArray} {fault : FileFault} (h : textOf bytes = .error fault) :
    fault = .notText ∧ ∀ text : String, bytes ≠ text.toUTF8 := by
  constructor
  · unfold textOf at h
    split at h
    · cases h
    · cases h
      rfl
  · intro text htext
    rw [textOf_eq_ok_iff.mpr htext] at h
    cases h

end Disk

namespace Tool.Linter

/-- What becomes of reading a file, the bytes of which may be anything or not to be had. -/
abbrev Files := String → Disk.Access ByteArray

def Files.text (files : Files) (path : String) : Disk.Access String := do
  Disk.textOf (← files path)

/-- The file is UTF-8 text, and the text is a document of the scene. -/
def Files.HoldsScene (files : Files) (path : String) (scene : Scene) : Prop :=
  ∃ source, files path = .ok source.toUTF8 ∧ Scene.parse source = .ok scene

/-- A file holds one scene at most. -/
theorem Files.HoldsScene.unique {files : Files} {path : String} {scene other : Scene}
    (h : files.HoldsScene path scene) (hother : files.HoldsScene path other) : scene = other := by
  obtain ⟨source, hfile, hparse⟩ := h
  obtain ⟨source', hfile', hparse'⟩ := hother
  obtain rfl : source = source' := by
    rw [hfile, Except.ok.injEq] at hfile'
    exact String.toByteArray_inj.mp hfile'
  rw [hparse, Except.ok.injEq] at hparse'
  exact hparse'

inductive Files.HasError (files : Files) (path : String) : String → Prop
  | unreadable {fault : FileFault} (h : files path = .error fault) :
      HasError files path ("Failed to read '" ++ path ++ "': " ++ fault.message)
  | notText {bytes : ByteArray} (h : files path = .ok bytes)
      (hbytes : ∀ source : String, bytes ≠ source.toUTF8) :
      HasError files path ("Failed to read '" ++ path ++ "': " ++ FileFault.notText.message)
  | noScene {source : String} {error : Json.Error} (h : files path = .ok source.toUTF8)
      (hparse : Scene.parse source = .error error) :
      HasError files path
        ("'" ++ path ++ "' is not a valid scene document: " ++ (SceneError.json error).message)

def Files.exit (files : Files) (path : String) (options : List String) : Exit :=
  run files.text (path :: options)

variable {files : Files} {path : String}

theorem text_eq_ok_iff {source : String} :
    files.text path = .ok source ↔ files path = .ok source.toUTF8 := by
  unfold Files.text
  cases files path with
  | error fault => simp [Bind.bind, Except.bind]
  | ok bytes => simpa [Bind.bind, Except.bind] using Disk.textOf_eq_ok_iff

theorem hasError_of_text_eq_error {fault : FileFault} (h : files.text path = .error fault) :
    files.HasError path ("Failed to read '" ++ path ++ "': " ++ fault.message) := by
  unfold Files.text at h
  cases hfile : files path with
  | error other =>
    obtain rfl : other = fault := by simpa [hfile, Bind.bind, Except.bind] using h
    exact .unreadable hfile
  | ok bytes =>
    have htext : Disk.textOf bytes = .error fault := by
      simpa [hfile, Bind.bind, Except.bind] using h
    obtain ⟨rfl, hbytes⟩ := Disk.textOf_eq_error htext
    exact .notText hfile hbytes

theorem findings_isEmpty_iff {scene : Scene} :
    (Lint.findings scene).isEmpty ↔ scene.Sound := by
  rw [← Lint.warnings_eq_nil_iff, Lint.warnings, List.map_eq_nil_iff, List.isEmpty_iff]

/-! How the program ends, by what the file holds -/

theorem check_of_holdsScene {scene : Scene} (h : files.HoldsScene path scene) (isStrict : Bool) :
    check path (files.text path) isStrict =
      { stdout := report scene
        code := if isStrict && !(Lint.findings scene).isEmpty then 1 else 0 } := by
  obtain ⟨source, hfile, hparse⟩ := h
  simp only [check, text_eq_ok_iff.mpr hfile, hparse]

/-- Without a scene the check fails whether it is strict or not. -/
theorem check_of_not_holdsScene (h : ¬ ∃ scene, files.HoldsScene path scene) :
    ∃ error, files.HasError path error ∧ ∀ isStrict,
      check path (files.text path) isStrict =
        { stderr := "ERROR: " ++ error ++ "\n", code := 1 } := by
  cases htext : files.text path with
  | error fault =>
    refine ⟨_, hasError_of_text_eq_error htext, fun isStrict => ?_⟩
    have hopening : "ERROR: Failed to read '" = "ERROR: " ++ "Failed to read '" := rfl
    simp only [check, hopening, String.append_assoc]
  | ok source =>
    have hfile := text_eq_ok_iff.mp htext
    cases hparse : Scene.parse source with
    | error error =>
      refine ⟨_, .noScene hfile hparse, fun isStrict => ?_⟩
      have hopening : "ERROR: '" = "ERROR: " ++ "'" := rfl
      simp only [check, hparse, hopening, String.append_assoc]
    | ok scene => exact absurd ⟨scene, source, hfile, hparse⟩ h

theorem exit_eq_check (h : path ≠ "--help" ∧ path ≠ "-h") (options : List String) :
    files.exit path options = check path (files.text path) (options.contains "--strict") := by
  rw [Files.exit, run, if_neg (by simp [h])]

theorem code_le_one (path : String) (contents : Disk.Access String) (isStrict : Bool) :
    (check path contents isStrict).code ≤ 1 := by
  unfold check
  split
  · exact Nat.le_refl 1
  · split
    · exact Nat.le_refl 1
    · dsimp only
      split <;> decide

/-- A strict check passes sound scenes, and another one passes any scene. -/
theorem code_eq_zero_iff {isStrict : Bool} :
    (check path (files.text path) isStrict).code = 0 ↔
      ∃ scene, files.HoldsScene path scene ∧ (isStrict → scene.Sound) := by
  constructor
  · intro hcode
    by_cases hholds : ∃ scene, files.HoldsScene path scene
    · obtain ⟨scene, hscene⟩ := hholds
      refine ⟨scene, hscene, fun hstrict => findings_isEmpty_iff.mp ?_⟩
      rw [check_of_holdsScene hscene, hstrict] at hcode
      simpa using hcode
    · obtain ⟨error, _, hcheck⟩ := check_of_not_holdsScene hholds
      rw [hcheck] at hcode
      cases hcode
  · intro h
    obtain ⟨scene, hscene, hsound⟩ := h
    rw [check_of_holdsScene hscene]
    cases isStrict with
    | false => rfl
    | true => simp [findings_isEmpty_iff.mpr (hsound rfl)]

def repeatingText : String :=
  "\x7b\"version\":\"2\",\"parts\":[\x7b\"kind\":\"BRANCH\",\"branch\":[" ++
    "\x7b\"name\":\"A\",\"dialogue\":[\x7b\"Ann\":\"Hi\"\x7d]\x7d," ++
    "\x7b\"name\":\"A\",\"dialogue\":[\x7b\"Bob\":\"Ho\"\x7d]\x7d]," ++
    "\"options\":\x7b\"waitForAll\":\"false\"\x7d\x7d]\x7d"

def repeatingDisk : Disk where
  entries := [(["doc"], .file repeatingText.toUTF8)]

end Tool.Linter

end SceneScript
