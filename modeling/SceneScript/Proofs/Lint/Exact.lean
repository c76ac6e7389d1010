import Mathlib.Algebra.GroupWithZero.Nat
import Mathlib.Data.Finset.Card
import SceneScript.Proofs.Lint.Findings

/-!
How many findings a scene has, and about which parts. The flaws of a part are counted without the
linter. Each of them gives one finding, and the findings about a part stand together, in the order
of the parts; so a scene has no finding exactly when it is sound.
-/
namespace SceneScript

/-- Dialogue is spoken, branches offer different choices that are all followed up, and an image
change sets one picture. -/
def Part.Sound : Part → Prop
  | .dialogue lines => lines ≠ []
  | .branch choices _ =>
    2 ≤ choices.length ∧ (choices.map Choice.name).Nodup ∧
      ∀ choice ∈ choices, choice.dialogue ≠ []
  | .imageChange change => change.SetsOne

structure Scene.Sound (scene : Scene) : Prop where
  parts_ne_nil : scene.parts ≠ []
  parts_sound : ∀ part ∈ scene.parts, part.Sound

namespace Lint

/-- How often a choice has the name of one before it. -/
def repeats (choices : List Choice) : Nat :=
  choices.length - (choices.map Choice.name).dedup.length

def withoutFollowUp (choices : List Choice) : Nat := choices.countP (·.dialogue.isEmpty)

def isAmbiguous (change : ImageChange) : Bool :=
  decide (change.background = "" ↔ change.character = "")

def flaws : Part → Nat
  | .dialogue lines => if lines = [] then 1 else 0
  | .branch choices _ =>
    (if choices.length < 2 then 1 else 0) + repeats choices + withoutFollowUp choices
  | .imageChange change => if isAmbiguous change then 1 else 0

/-! The findings about one part -/

theorem length_dedup_names_le (choices : List Choice) :
    (choices.map Choice.name).dedup.length ≤ choices.length := by
  have hle := (List.dedup_sublist (choices.map Choice.name)).length_le
  rwa [List.length_map] at hle

/-- A name that is not known counts once, and is known from there on. -/
theorem card_insert_sdiff (name : String) (names known : Finset String) :
    (insert name names \ known).card =
      (if name ∈ known then 0 else 1) + (names \ insert name known).card := by
  by_cases hknown : name ∈ known
  · rw [if_pos hknown, Nat.zero_add, Finset.insert_sdiff_of_mem names hknown,
      Finset.insert_eq_of_mem hknown]
  · have hsplit : insert name names \ known = insert name (names \ insert name known) := by
      ext other
      by_cases hother : other = name
      · simp [hother, hknown]
      · simp [hother]
    rw [if_neg hknown, hsplit, Finset.card_insert_of_notMem (by simp), Nat.add_comm]

/-- The names that are known are those of the choices before. -/
theorem length_choiceProblems_add (known : List String) (choices : List Choice) :
    (choiceProblems known choices).length +
        ((choices.map Choice.name).toFinset \ known.toFinset).card =
      choices.length + withoutFollowUp choices := by
  induction choices generalizing known with
  | nil => simp [choiceProblems, withoutFollowUp]
  | cons choice choices ih =>
    have hrest := ih (choice.name :: known)
    have hempty :
        (if choice.dialogue.isEmpty then [Problem.noFollowUp choice.name] else []).length =
          if choice.dialogue.isEmpty then 1 else 0 := by
      split <;> rfl
    have hrepeated :
        (if choice.name ∈ known then [Problem.repeatedName choice.name] else []).length +
          (if choice.name ∈ known.toFinset then 0 else 1) = 1 := by
      by_cases hknown : choice.name ∈ known <;> simp [hknown]
    rw [List.toFinset_cons] at hrest
    rw [choiceProblems, List.map_cons, List.toFinset_cons, card_insert_sdiff]
    simp only [List.length_append, hempty, withoutFollowUp, List.countP_cons, List.length_cons]
      at hrest ⊢
    omega

theorem length_choiceProblems (choices : List Choice) :
    (choiceProblems [] choices).length = repeats choices + withoutFollowUp choices := by
  have hcount := length_choiceProblems_add [] choices
  have hle := length_dedup_names_le choices
  rw [List.toFinset_nil, Finset.sdiff_empty, List.card_toFinset] at hcount
  rw [repeats]
  omega

/-- Each flaw of a part is one problem. -/
theorem length_partProblems (part : Part) : (partProblems part).length = flaws part := by
  cases part with
  | dialogue lines => cases lines <;> rfl
  | branch choices waitForAll =>
    have hfew : (if choices.length < 2 then [Problem.fewChoices choices.length] else []).length =
        if choices.length < 2 then 1 else 0 := by
      split <;> rfl
    rw [partProblems, List.length_append, length_choiceProblems, hfew, flaws, Nat.add_assoc]
  | imageChange change =>
    simp only [partProblems, flaws, isAmbiguous, eq_iff_iff, decide_eq_true_eq]
    split <;> rfl

theorem repeats_eq_zero_iff {choices : List Choice} :
    repeats choices = 0 ↔ (choices.map Choice.name).Nodup := by
  have hle := length_dedup_names_le choices
  have hsublist := List.dedup_sublist (choices.map Choice.name)
  constructor
  · intro h
    have hlength : (choices.map Choice.name).length ≤ (choices.map Choice.name).dedup.length := by
      rw [repeats] at h
      rw [List.length_map]
      omega
    rw [← hsublist.eq_of_length_le hlength]
    exact List.nodup_dedup _
  · intro h
    rw [repeats, h.dedup, List.length_map, Nat.sub_self]

/-- Sound parts are those without flaws. -/
theorem flaws_eq_zero_iff {part : Part} : flaws part = 0 ↔ part.Sound := by
  cases part with
  | dialogue lines => simp [flaws, Part.Sound]
  | branch choices waitForAll =>
    have hfollowUp : withoutFollowUp choices = 0 ↔ ∀ choice ∈ choices, choice.dialogue ≠ [] := by
      simp [withoutFollowUp]
    rw [flaws, Part.Sound, ← hfollowUp, ← repeats_eq_zero_iff]
    split <;> omega
  | imageChange change => simp [flaws, isAmbiguous, Part.Sound, ImageChange.SetsOne]

/-! The findings about all parts -/

def groups (number : Nat) (parts : List Part) : List (List Finding) :=
  parts.mapIdx fun i part => (partProblems part).map (.inPart (number + i) part.kind)

theorem partFindings_eq_flatten (number : Nat) (parts : List Part) :
    partFindings number parts = (groups number parts).flatten := by
  induction parts generalizing number with
  | nil => rfl
  | cons part parts ih =>
    have hnumber : groups (number + 1) parts = parts.mapIdx fun i part =>
        (partProblems part).map (Finding.inPart (number + (i + 1)) part.kind) := by
      simp only [groups, Nat.add_assoc, Nat.add_comm 1]
    rw [partFindings, ih, hnumber, groups, List.mapIdx_cons, List.flatten_cons, Nat.add_zero]

/-- Parts behind others are numbered on, and their findings come behind. -/
theorem partFindings_append (number : Nat) (parts more : List Part) :
    partFindings number (parts ++ more) =
      partFindings number parts ++ partFindings (number + parts.length) more := by
  induction parts generalizing number with
  | nil => rfl
  | cons part parts ih =>
    rw [List.cons_append, partFindings, partFindings, ih, List.append_assoc, List.length_cons,
      Nat.add_comm parts.length, Nat.add_assoc]

theorem length_partFindings (number : Nat) (parts : List Part) :
    (partFindings number parts).length = (parts.map flaws).sum := by
  induction parts generalizing number with
  | nil => rfl
  | cons part parts ih =>
    rw [partFindings, List.length_append, List.length_map, length_partProblems, ih, List.map_cons,
      List.sum_cons]

theorem findings_of_ne_nil {scene : Scene} (h : scene.parts ≠ []) :
    findings scene = partFindings 1 scene.parts := by
  rw [findings, if_neg (by simpa using h)]

theorem length_warnings (scene : Scene) :
    (warnings scene).length =
      (if scene.parts = [] then 1 else 0) + (scene.parts.map flaws).sum := by
  rw [warnings, List.length_map]
  by_cases h : scene.parts = []
  · simp [findings, h]
  · rw [findings_of_ne_nil h, length_partFindings, if_neg h, Nat.zero_add]

theorem warnings_eq_nil_iff {scene : Scene} : warnings scene = [] ↔ scene.Sound := by
  rw [← List.length_eq_zero_iff, length_warnings, Nat.add_eq_zero_iff,
    List.sum_eq_zero_iff_forall_eq_nat]
  constructor
  · intro h
    obtain ⟨hparts, hflaws⟩ := h
    refine ⟨fun hnil => ?_, fun part hpart => flaws_eq_zero_iff.mp ?_⟩
    · rw [if_pos hnil] at hparts
      cases hparts
    · exact hflaws _ (List.mem_map_of_mem hpart)
  · intro h
    refine ⟨if_neg h.parts_ne_nil, fun n hn => ?_⟩
    obtain ⟨part, hpart, rfl⟩ := List.mem_map.mp hn
    exact flaws_eq_zero_iff.mpr (h.parts_sound part hpart)

/-! The flaws by their kind -/

def choicesOf : Part → Option (List Choice)
  | .branch choices _ => some choices
  | _ => none

def changeOf : Part → Option ImageChange
  | .imageChange change => some change
  | _ => none

def branches (parts : List Part) : List (List Choice) := parts.filterMap choicesOf

def changes (parts : List Part) : List ImageChange := parts.filterMap changeOf

/-- The flaws of all parts, kind by kind instead of part by part. -/
theorem sum_flaws (parts : List Part) :
    (parts.map flaws).sum = parts.count (.dialogue []) +
      (branches parts).countP (·.length < 2) + ((branches parts).map repeats).sum +
      (branches parts).flatten.countP (·.dialogue.isEmpty) +
      (changes parts).countP isAmbiguous := by
  induction parts with
  | nil => rfl
  | cons part parts ih =>
    rw [List.map_cons, List.sum_cons, ih, List.count_cons]
    cases part with
    | dialogue lines =>
      have hcount : (if Part.dialogue lines == .dialogue [] then 1 else 0) =
          if lines = [] then 1 else 0 := by simp
      have hbranches : branches (.dialogue lines :: parts) = branches parts := rfl
      have hchanges : changes (.dialogue lines :: parts) = changes parts := rfl
      rw [hcount, hbranches, hchanges, flaws]
      omega
    | branch choices waitForAll =>
      have hcount : (if Part.branch choices waitForAll == .dialogue [] then 1 else 0) = 0 := by simp
      have hbranches : branches (.branch choices waitForAll :: parts) =
          choices :: branches parts := rfl
      have hchanges : changes (.branch choices waitForAll :: parts) = changes parts := rfl
      rw [hcount, hbranches, hchanges, flaws, withoutFollowUp]
      simp only [List.countP_cons, List.map_cons, List.sum_cons, List.flatten_cons,
        List.countP_append, decide_eq_true_eq]
      omega
    | imageChange change =>
      have hcount : (if Part.imageChange change == .dialogue [] then 1 else 0) = 0 := by simp
      have hbranches : branches (.imageChange change :: parts) = branches parts := rfl
      have hchanges : changes (.imageChange change :: parts) = change :: changes parts := rfl
      rw [hcount, hbranches, hchanges, flaws, List.countP_cons]
      omega

def label (number : Nat) (kind : Kind) : String :=
  "Part " ++ toString number ++ " (" ++ kind.tag ++ ") "

/-- Part by part, as many warnings as there are flaws, each of them with the label of its part. -/
theorem exists_warnings_eq_flatten {scene : Scene} (h : scene.parts ≠ []) :
    ∃ groups : List (List String), warnings scene = groups.flatten ∧
      groups.length = scene.parts.length ∧
      ∀ i part group, scene.parts[i]? = some part → groups[i]? = some group →
        group.length = flaws part ∧
          ∀ warning ∈ group, ∃ problem, warning = label (i + 1) part.kind ++ problem := by
  refine ⟨(groups 1 scene.parts).map (List.map Finding.message), ?_, ?_, ?_⟩
  · rw [warnings, findings_of_ne_nil h, partFindings_eq_flatten, List.map_flatten]
  · rw [List.length_map, groups, List.length_mapIdx]
  · intro i part group hpart hgroup
    rw [groups, List.getElem?_map, List.getElem?_mapIdx, hpart, Option.map_some, Option.map_some,
      Option.some_inj] at hgroup
    subst hgroup
    refine ⟨by rw [List.length_map, List.length_map, length_partProblems], ?_⟩
    intro warning hwarning
    simp only [List.mem_map, exists_exists_and_eq_and] at hwarning
    obtain ⟨problem, _, rfl⟩ := hwarning
    exact ⟨problem.message, by rw [Finding.message, label, Nat.add_comm]⟩

/-- Parts that are put behind others only add warnings. -/
theorem warnings_isPrefix {scene other : Scene} {more : List Part} (h : scene.parts ≠ [])
    (hother : other.parts = scene.parts ++ more) : warnings scene <+: warnings other := by
  have hne : other.parts ≠ [] := by
    rw [hother]
    exact List.append_ne_nil_of_left_ne_nil h more
  rw [warnings, warnings, findings_of_ne_nil h, findings_of_ne_nil hne, hother,
    partFindings_append, List.map_append]
  exact List.prefix_append _ _

/-- There is a warning for each flaw of a scene and for nothing else, so a scene without warnings
is sound. Warnings about a part carry its label and stand in its place among the others, and parts
that are put behind the present ones only add warnings behind theirs. -/
theorem warnings_exact (scene : Scene) :
    (warnings scene = [] ↔ scene.Sound) ∧
    (warnings scene).length = (if scene.parts = [] then 1 else 0) +
      scene.parts.count (.dialogue []) + (branches scene.parts).countP (·.length < 2) +
      ((branches scene.parts).map fun choices =>
        choices.length - (choices.map Choice.name).dedup.length).sum +
      (branches scene.parts).flatten.countP (·.dialogue.isEmpty) +
      (changes scene.parts).countP (fun change => change.background = "" ↔ change.character = "") ∧
    (scene.parts ≠ [] → ∃ groups : List (List String), warnings scene = groups.flatten ∧
      groups.length = scene.parts.length ∧
      ∀ i part group, scene.parts[i]? = some part → groups[i]? = some group →
        group.length = flaws part ∧
          ∀ warning ∈ group, ∃ problem, warning = label (i + 1) part.kind ++ problem) ∧
    (scene.parts ≠ [] → ∀ (other : Scene) (more : List Part),
      other.parts = scene.parts ++ more → warnings scene <+: warnings other) := by
  refine ⟨warnings_eq_nil_iff, ?_, exists_warnings_eq_flatten, ?_⟩
  · have hcount := length_warnings scene
    rw [sum_flaws] at hcount
    have hrepeats : repeats = fun choices => choices.length -
        (choices.map Choice.name).dedup.length := rfl
    have hambiguous : isAmbiguous = fun change =>
        decide (change.background = "" ↔ change.character = "") := rfl
    rw [hcount, hrepeats, hambiguous]
    omega
  · intro h other more hother
    exact warnings_isPrefix h hother

/-- Three choices share a name, and two of them lead nowhere. -/
def flawedParts : List Part :=
  [.dialogue [], .branch [⟨"Same", [⟨"Ann", "Hi", none⟩]⟩, ⟨"Same", []⟩, ⟨"Same", []⟩] true]

def moreFlawedParts : List Part :=
  [.branch [⟨"Only", [⟨"Ann", "Hi", none⟩]⟩] false, .imageChange ⟨"", ""⟩,
    .imageChange ⟨"b.png", "s.png"⟩]

theorem length_warnings_flawedParts :
    (warnings ⟨"1", flawedParts ++ moreFlawedParts, none⟩).length = 8 ∧
      warnings ⟨"1", flawedParts, none⟩ <+:
        warnings ⟨"1", flawedParts ++ moreFlawedParts, none⟩ := by
  obtain ⟨_, hcount, _, _⟩ := warnings_exact ⟨"1", flawedParts ++ moreFlawedParts, none⟩
  obtain ⟨_, _, _, hprefix⟩ := warnings_exact ⟨"1", flawedParts, none⟩
  refine ⟨hcount.trans (by decide +kernel), ?_⟩
  exact hprefix (by simp [flawedParts]) _ moreFlawedParts rfl

end Lint

end SceneScript
