import SceneScript.Lint
import SceneScript.Proofs.Scene.Valid
import Mathlib.Logic.Basic

/-!
Findings and the parts that they are about. A scene has a finding about pictures exactly when one
of its image changes does not set one picture, and no other finding ends in the same words.
-/
namespace SceneScript.Lint

theorem exists_inPart_mem_partFindings_iff {number : Nat} {parts : List Part} {problem : Problem} :
    (∃ i kind, .inPart i kind problem ∈ partFindings number parts) ↔
      ∃ part ∈ parts, problem ∈ partProblems part := by
  induction parts generalizing number with
  | nil => simp [partFindings]
  | cons part parts ih =>
    have hhead : (∃ i kind, Finding.inPart i kind problem ∈
        (partProblems part).map (.inPart number part.kind)) ↔ problem ∈ partProblems part := by
      constructor
      · intro h
        obtain ⟨i, kind, hmem⟩ := h
        obtain ⟨other, hother, heq⟩ := List.mem_map.mp hmem
        cases heq
        exact hother
      · intro h
        exact ⟨number, part.kind, List.mem_map.mpr ⟨problem, h, rfl⟩⟩
    simp only [partFindings, List.mem_append, exists_or, hhead, ih, List.mem_cons,
      exists_eq_or_imp]

/-- A blank scene has a finding, but none about a part. -/
theorem exists_inPart_mem_findings_iff {scene : Scene} {problem : Problem} :
    (∃ i kind, .inPart i kind problem ∈ findings scene) ↔
      ∃ part ∈ scene.parts, problem ∈ partProblems part := by
  unfold findings
  split
  · rename_i hempty
    simp [List.isEmpty_iff.mp hempty]
  · exact exists_inPart_mem_partFindings_iff

private theorem ambiguousImage_not_mem_choiceProblems (seen : List String)
    (choices : List Choice) : .ambiguousImage ∉ choiceProblems seen choices := by
  induction choices generalizing seen with
  | nil => simp [choiceProblems]
  | cons choice choices ih =>
    simp only [choiceProblems, List.mem_append, not_or]
    refine ⟨⟨?_, ?_⟩, ih _⟩
    · split <;> simp
    · split <;> simp

theorem ambiguousImage_mem_partProblems_iff {part : Part} :
    .ambiguousImage ∈ partProblems part ↔ ¬ part.SetsOnePicture := by
  cases part with
  | dialogue lines =>
    simp only [partProblems, Part.SetsOnePicture, not_true, iff_false]
    split <;> simp
  | branch choices waitForAll =>
    have hchoices := ambiguousImage_not_mem_choiceProblems [] choices
    simp only [partProblems, Part.SetsOnePicture, not_true, iff_false, List.mem_append, hchoices,
      or_false]
    split <;> simp
  | imageChange change =>
    simp only [partProblems, Part.SetsOnePicture, ImageChange.SetsOne, not_not, eq_iff_iff]
    split
    · rename_i h
      simp [h]
    · rename_i h
      simp [h]

/-! The words of findings -/

/-- Endings of one text that are equally long are the same. -/
private theorem eq_of_isSuffix {ends others last whole : List Char} (h : ends <:+ whole)
    (hlast : last <:+ whole) (hothers : others <:+ last) (hlength : ends.length = others.length) :
    ends = others := by
  have hwhole := hothers.trans hlast
  exact (List.suffix_of_suffix_length_le h hwhole (Nat.le_of_eq hlength)).eq_of_length hlength

private theorem isSuffix_append (label : List Char) (first last : String) :
    last.toList <:+ label ++ (first ++ last).toList := by
  rw [String.toList_append, ← List.append_assoc]
  exact List.suffix_append _ _

/-- What a finding about a part says last is its problem. -/
private theorem toList_message_inPart (number : Nat) (kind : Kind) (problem : Problem) :
    ∃ label, (Finding.inPart number kind problem).message.toList =
      label ++ problem.message.toList := by
  refine ⟨("Part " ++ toString number ++ " (" ++ kind.tag ++ ") ").toList, ?_⟩
  rw [← String.toList_append]
  rfl

/-- The words of the other problems end in other letters. -/
private theorem eq_ambiguousImage_of_isSuffix {label : List Char} {problem : Problem}
    (h : Problem.ambiguousImage.message.toList <:+ label ++ problem.message.toList) :
    problem = .ambiguousImage := by
  have hends : ['g', 'e'] <:+ label ++ problem.message.toList :=
    .trans (by decide +kernel : ['g', 'e'] <:+ Problem.ambiguousImage.message.toList) h
  cases problem with
  | noLines =>
    have hlast := List.suffix_append label Problem.noLines.message.toList
    have hsame : ['g', 'e'] = ['e', 's'] := eq_of_isSuffix hends hlast (by decide +kernel) rfl
    exact absurd hsame (by decide)
  | fewChoices count =>
    have hlast := isSuffix_append label ("has only " ++ toString count)
      " option(s) (a choice needs at least 2)"
    have hsame : ['g', 'e'] = ['2', ')'] := eq_of_isSuffix hends hlast (by decide +kernel) rfl
    exact absurd hsame (by decide)
  | repeatedName name =>
    have hend : ['e'] <:+ label ++ (Problem.repeatedName name).message.toList :=
      .trans ⟨['g'], rfl⟩ hends
    have hlast := isSuffix_append label ("repeats option name '" ++ name) "'"
    have hsame : ['e'] = ['\''] := eq_of_isSuffix hend hlast (by decide +kernel) rfl
    exact absurd hsame (by decide)
  | noFollowUp name =>
    have hlast := isSuffix_append label ("option '" ++ name) "' has no follow-up dialogue"
    have hsame : ['g', 'e'] = ['u', 'e'] := eq_of_isSuffix hends hlast (by decide +kernel) rfl
    exact absurd hsame (by decide)
  | ambiguousImage => rfl

/-- The message about an ambiguous picture is told from all other findings by its end. -/
theorem isSuffix_message_iff {finding : Finding} :
    Problem.ambiguousImage.message.toList <:+ finding.message.toList ↔
      ∃ number kind, finding = .inPart number kind .ambiguousImage := by
  constructor
  · intro h
    cases finding with
    | noParts => exact absurd h (by decide)
    | inPart number kind problem =>
      obtain ⟨label, heq⟩ := toList_message_inPart number kind problem
      rw [heq] at h
      rw [eq_ambiguousImage_of_isSuffix h]
      exact ⟨number, kind, rfl⟩
  · intro h
    obtain ⟨number, kind, rfl⟩ := h
    obtain ⟨label, heq⟩ := toList_message_inPart number kind .ambiguousImage
    rw [heq]
    exact List.suffix_append label _

/-- The warning about pictures is raised for no part exactly when every image change sets one. -/
theorem forall_warnings_iff {scene : Scene} :
    (∀ warning ∈ warnings scene,
        ¬ Problem.ambiguousImage.message.toList <:+ warning.toList) ↔
      ∀ part ∈ scene.parts, part.SetsOnePicture := by
  have hpart : (∃ part ∈ scene.parts, .ambiguousImage ∈ partProblems part) ↔
      ∃ finding ∈ findings scene,
        Problem.ambiguousImage.message.toList <:+ finding.message.toList := by
    rw [← exists_inPart_mem_findings_iff]
    constructor
    · intro h
      obtain ⟨number, kind, hmem⟩ := h
      exact ⟨_, hmem, isSuffix_message_iff.mpr ⟨number, kind, rfl⟩⟩
    · intro h
      obtain ⟨finding, hmem, hends⟩ := h
      obtain ⟨number, kind, rfl⟩ := isSuffix_message_iff.mp hends
      exact ⟨number, kind, hmem⟩
  simp only [ambiguousImage_mem_partProblems_iff] at hpart
  rw [← not_iff_not]
  simpa [warnings] using hpart.symm

end SceneScript.Lint
