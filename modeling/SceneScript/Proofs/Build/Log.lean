import SceneScript.Proofs.Build.Runs

/-!
What the records tell about what is built. A call that adds something to its builder reports it
once, behind whatever has been reported in its body, and a call that fails reports nothing of its
own. So the records of a scope can be read off what its builder has gained, whichever failures are
caught.
-/
namespace SceneScript

open Build

/-- The scope whose builder reports, or what reports about writing. -/
inductive Reporter where
  | dialogue
  | choices
  | parts
  | scene
  | writing
  deriving DecidableEq

def Record.reporter : Record → Reporter
  | .flattening _ => .dialogue
  | .choiceClosed _ _ => .choices
  | .appending _ _ => .parts
  | .replacing _ => .scene
  | .writeSkipped => .writing
  | .written _ _ => .writing

def Event.failedPlace? : Event → Option (List Nat)
  | .finished place _ _ (some _) => some place
  | _ => none

/-- Where steps have failed, whether they were caught or not. -/
def failedPlaces (events : List Event) : List (List Nat) := events.filterMap Event.failedPlace?

def Choice.closing (choice : Choice) : Record := .choiceClosed choice.name choice.dialogue.length

def Part.closings : Part → List Record
  | .branch choices _ => choices.map Choice.closing
  | _ => []

namespace Build

variable {α β γ : Type}

/-- An operation of which nothing is heard. -/
theorem Logs.unheard {op : Build β α} {R : Record → Prop} {isHeard : Record → Bool} (h : Logs R op)
    (hR : ∀ record, R record → isHeard record = false) :
    Runs op fun _ _ _ added => reported isHeard added = [] :=
  h.runs.mono fun _ _ _ _ hadded => reported_eq_nil fun _ hrecord => hR _ (hadded _ hrecord)

/-- How a call ends that reports what it adds. Its own record comes last and is the only one of
those of certain kinds; a call that fails changes nothing and has no such record. -/
inductive Reports (isHeard : Record → Bool) (fits : β → β → Record → List Event → Prop) (b : β) :
    Except SceneError Unit → β → List Event → Prop
  | succeeded {c : β} {record : Record} {inner : List Event} (hheard : isHeard record)
      (hinner : reported isHeard inner = []) (hfits : fits b c record inner) :
      Reports isHeard fits b (.ok ()) c (inner ++ [.record record])
  | failed {e : SceneError} {inner : List Event} (hinner : reported isHeard inner = []) :
      Reports isHeard fits b (.error e) b inner

/-- Records of some kinds tell what a builder has gained, with the number of each item. -/
def Tells (isHeard : Record → Bool) (held : β → List γ) (tale : γ × Nat → List Record) (b c : β)
    (events : List Event) : Prop :=
  ∃ gained, held c = held b ++ gained ∧
    reported isHeard events = (gained.zipIdx ((held b).length + 1)).flatMap tale

section

variable {isHeard : Record → Bool} {held : β → List γ} {tale : γ × Nat → List Record} {b c d : β}
  {events more : List Event}

theorem Tells.refl (h : reported isHeard events = []) : Tells isHeard held tale b b events :=
  ⟨[], (List.append_nil _).symm, h⟩

/-- What is gained in one run and then in another is told in the order of the gains, with the
numbers going on. -/
theorem Tells.trans (h : Tells isHeard held tale b c events)
    (h' : Tells isHeard held tale c d more) :
    Tells isHeard held tale b d (events ++ more) := by
  obtain ⟨gained, hc, hevents⟩ := h
  obtain ⟨others, hd, hmore⟩ := h'
  refine ⟨gained ++ others, by rw [hd, hc, List.append_assoc], ?_⟩
  have hnumber : (held c).length + 1 = (held b).length + 1 + gained.length := by
    rw [hc, List.length_append]
    omega
  rw [reported_append, hevents, hmore, hnumber, List.zipIdx_append, List.flatMap_append]

/-- One more item is told with its number, which is one more than there were. -/
theorem Tells.of_gained {x : γ} (hc : held c = held b ++ [x])
    (h : reported isHeard events = tale (x, (held b).length + 1)) :
    Tells isHeard held tale b c events :=
  ⟨[x], hc, by simpa using h⟩

/-- The end of a step is no record. -/
theorem Tells.finished (h : Tells isHeard held tale b c events) (place : List Nat) (step : String)
    (progress : Progress) (error : Option SceneError) :
    Tells isHeard held tale b c (events ++ [.finished place step progress error]) :=
  h.trans (.refl rfl)

/-- A scope tells what each of its steps tells. -/
theorem tells_performAll {place : List Nat} {name : α → String} {progress : β → Progress}
    {run : List Nat → α → Build β Unit} {i : Nat} {steps : List (Step α)}
    (h : ∀ place action, Runs (run place action) fun b _ c added =>
      Tells isHeard held tale b c added) :
    Runs (performAll place name progress run i steps) fun b _ c added =>
      Tells isHeard held tale b c added := by
  apply runs_performAll
  · exact fun b => .refl rfl
  · exact fun b c added result d more hadded hmore => hadded.trans hmore
  · intro i step _
    exact (h _ _).perform fun b result c added hadded => hadded.finished _ _ _ _

end

/-- A call that runs its body on a builder of its own, and reports and adds what has come out. -/
theorem Runs.reports {body : Build γ Unit} {blank : γ} {next : γ → Build β Unit}
    {isHeard : Record → Bool} {P : γ → Except SceneError Unit → γ → List Event → Prop}
    {fits : β → β → Record → List Event → Prop} (hbody : Runs body P) (add : γ → β → β)
    (own : γ → β → Record)
    (hnext : ∀ inner s, next inner s =
      .ok () ⟨add inner s.built, s.journal ++ [.record (own inner s.built)]⟩)
    (hheard : ∀ inner b, isHeard (own inner b))
    (hsilent : ∀ result inner added,
      P blank result inner added → reported isHeard added = [])
    (hfits : ∀ b inner added,
      P blank (.ok ()) inner added → fits b (add inner b) (own inner b) added) :
    Runs (do let inner ← within blank body; next inner) (Reports isHeard fits) := by
  have hclose (inner : γ) : Runs (next inner) fun b result c more =>
      result = .ok () ∧ c = add inner b ∧ more = [.record (own inner b)] := by
    intro s
    refine ⟨[.record (own inner s.built)], journal_of_ok (hnext inner s), ?_⟩
    rw [outcome_eq_ok_iff.mpr ⟨_, hnext inner s, rfl⟩]
    exact ⟨rfl, rfl, rfl⟩
  apply hbody.within_bind hclose
  · rintro b inner added result c more hP ⟨rfl, rfl, rfl⟩
    exact .succeeded (hheard inner b) (hsilent _ _ _ hP) (hfits b inner added hP)
  · intro b e inner added hP
    exact .failed (hsilent _ _ _ hP)

/-- An argument that is refused leaves nothing to report. -/
theorem Runs.reports_behind_require {checked : Except InvalidInput α} {next : α → Build β Unit}
    {isHeard : Record → Bool} {fits : β → β → Record → List Event → Prop}
    (hnext : ∀ a, Runs (next a) (Reports isHeard fits)) :
    Runs (do next (← require checked)) (Reports isHeard fits) := by
  apply (runs_require checked).bind hnext
  · rintro b a c added result d more ⟨rfl, rfl⟩ hmore
    exact hmore
  · rintro b e c added ⟨rfl, rfl⟩
    exact .failed rfl

end Build

/-! Calls -/

/-- Nothing at all is reported from inside a monologue. -/
theorem MonologueProgram.unheard_run (program : MonologueProgram) (place : List Nat) :
    Runs (program.run place 0) fun _ _ _ added => reported (fun _ => true) added = [] := by
  have hlogs : Logs (fun _ => False) (program.run place 0) := program.logs_run place 0
  exact hlogs.unheard fun _ => False.elim

/-- From inside a block of dialogue there are only reports about monologues. -/
theorem DialogueAction.unheard_runAll (isHeard : Record → Bool)
    (h : ∀ lines, isHeard (.flattening lines) = false) (place : List Nat)
    (steps : DialogueProgram) :
    Runs (runAll place steps) fun _ _ _ added => reported isHeard added = [] :=
  (logs_runAll h place steps).unheard fun _ => id

/-- Nested monologues are not reported. -/
theorem Monologue.runs_monologue (body : MonologueProgram) (place : List Nat) :
    Runs (Monologue.monologue (body.run place 0)) fun _ _ _ added =>
      reported (fun _ => true) added = [] := by
  have hlogs : Logs (fun _ => False) (Monologue.monologue (body.run place 0)) :=
    ((body.logs_run place 0).within {}).bind fun _ => logs_update _
  exact hlogs.unheard fun _ => False.elim

def Dialogue.Gains (d d' : Dialogue) (record : Record) (_ : List Event) : Prop :=
  ∃ lines, d'.lines = d.lines ++ lines ∧ record = .flattening lines.length

/-- A monologue reports how many lines it adds, and nothing when it fails. -/
theorem Dialogue.runs_monologue (body : MonologueProgram) (place : List Nat) :
    Runs (Dialogue.monologue (body.run place 0)) (Reports (fun _ => true) Dialogue.Gains) := by
  apply (body.unheard_run place).reports (fun inner d => ⟨d.lines ++ inner.lines⟩)
    (fun inner _ => .flattening inner.lines.length)
  · exact fun _ _ => rfl
  · exact fun _ _ => rfl
  · exact fun _ _ _ hsilent => hsilent
  · intro d inner _ _
    exact ⟨inner.lines, rfl, rfl⟩

def Choices.Gains (name : String) (b c : Choices) (record : Record) (_ : List Event) : Prop :=
  ∃ lines, c.choices = b.choices ++ [⟨name, lines⟩] ∧ record = .choiceClosed name lines.length

/-- A choice is reported with its name and the length of its dialogue once it is added. -/
theorem Choices.runs_option (name : String) (body : DialogueProgram) (place : List Nat) :
    Runs (Choices.option name (DialogueAction.runAll place body))
      (Reports (·.reporter != .dialogue) (Choices.Gains name)) := by
  have hbody := DialogueAction.unheard_runAll (·.reporter != .dialogue) (fun _ => rfl) place body
  apply Runs.reports_behind_require
  intro _
  apply hbody.reports (fun dialogue b => ⟨b.choices ++ [⟨name, dialogue.lines⟩]⟩)
    (fun dialogue _ => .choiceClosed name dialogue.lines.length)
  · exact fun _ _ => rfl
  · exact fun _ _ => rfl
  · exact fun _ _ _ hsilent => hsilent
  · intro b dialogue _ _
    exact ⟨dialogue.lines, rfl, rfl⟩

/-- A choice that cannot be added has no record, so those in a scope are of the choices there are in
the end. -/
theorem ChoicesAction.tells_runAll (place : List Nat) (steps : ChoicesProgram) :
    Runs (ChoicesAction.runAll place steps) fun b _ c added =>
      Tells (·.reporter != .dialogue) Choices.choices (fun (choice, _) => [choice.closing])
        b c added := by
  apply tells_performAll
  intro place action
  cases action with
  | option name body =>
    apply (Choices.runs_option name body place).mono
    intro b result c added hadded
    cases hadded with
    | @succeeded c record inner hheard hinner hfits =>
      obtain ⟨lines, hc, rfl⟩ := hfits
      apply Tells.of_gained hc
      rw [reported_append, hinner]
      rfl
    | failed hinner => exact .refl hinner
  | fail message =>
    apply (runs_failWith message).mono
    rintro b result c added ⟨_, rfl, rfl⟩
    exact .refl rfl

/-- The record of a part knows its kind and its number. Before it, the choices of the part have been
reported, and no others. -/
def Parts.Gains (b c : Parts) (record : Record) (inner : List Event) : Prop :=
  ∃ part, c.parts = b.parts ++ [part] ∧ record = .appending part.kind c.parts.length ∧
    reported (·.reporter != .dialogue) inner = part.closings

namespace Parts

theorem gains_append (b : Parts) {part : Part} {inner : List Event}
    (h : reported (·.reporter != .dialogue) inner = part.closings) :
    Parts.Gains b ⟨b.parts ++ [part]⟩ (.appending part.kind (b.parts.length + 1)) inner := by
  refine ⟨part, rfl, ?_, h⟩
  rw [List.length_append, List.length_singleton]

theorem runs_append {part : Part} (h : part.closings = []) :
    Runs (append part) (Reports (·.reporter == .parts) Parts.Gains) := by
  intro s
  have hgains : Parts.Gains s.built ⟨s.built.parts ++ [part]⟩
      (.appending part.kind (s.built.parts.length + 1)) [] := gains_append s.built h.symm
  exact ⟨_, rfl, .succeeded rfl rfl hgains⟩

/-- A part that is built in a scope of its own. -/
theorem runs_append_within {γ : Type} {body : Build γ Unit} {blank : γ} {part : γ → Part}
    {P : γ → Except SceneError Unit → γ → List Event → Prop} (hbody : Runs body P)
    (hsilent : ∀ result inner added,
      P blank result inner added → reported (·.reporter == .parts) added = [])
    (hclosings : ∀ inner added, P blank (.ok ()) inner added →
      reported (·.reporter != .dialogue) added = (part inner).closings) :
    Runs (do let inner ← within blank body; append (part inner))
      (Reports (·.reporter == .parts) Parts.Gains) := by
  apply hbody.reports (fun inner b => ⟨b.parts ++ [part inner]⟩)
    (fun inner b => .appending (part inner).kind (b.parts.length + 1))
  · exact fun _ _ => rfl
  · exact fun _ _ => rfl
  · exact hsilent
  · intro b inner added hadded
    exact gains_append b (hclosings inner added hadded)

theorem runs_dialogue (body : DialogueProgram) (place : List Nat) :
    Runs (dialogue (DialogueAction.runAll place body))
      (Reports (·.reporter == .parts) Parts.Gains) := by
  have hparts := DialogueAction.unheard_runAll (·.reporter == .parts) (fun _ => rfl) place body
  have hothers := DialogueAction.unheard_runAll (·.reporter != .dialogue) (fun _ => rfl) place body
  apply runs_append_within (hparts.and hothers)
  · exact fun _ _ _ hsilent => hsilent.1
  · exact fun _ _ hsilent => hsilent.2

/-- A branch is reported behind its choices, with its number among the parts. -/
theorem runs_branchWith (waitForAll : Bool) (body : ChoicesProgram) (place : List Nat) :
    Runs (branchWith waitForAll (ChoicesAction.runAll place body))
      (Reports (·.reporter == .parts) Parts.Gains) := by
  have hlogs : Logs (fun record => (record.reporter == .parts) = false)
      (ChoicesAction.runAll place body) :=
    ChoicesAction.logs_runAll (fun _ => rfl) (fun _ _ => rfl) place body
  have hparts := hlogs.unheard fun _ => id
  apply runs_append_within (hparts.and (ChoicesAction.tells_runAll place body))
  · exact fun _ _ _ h => h.1
  · rintro inner added ⟨_, gained, hinner, hadded⟩
    obtain rfl : inner.choices = gained := hinner
    calc reported (·.reporter != .dialogue) added
        = (inner.choices.zipIdx 1).map (Choice.closing ∘ Prod.fst) :=
          hadded.trans List.map_eq_flatMap.symm
      _ = inner.choices.map Choice.closing := by rw [← List.map_map, List.zipIdx_map_fst]

end Parts

/-- Each step of parts adds one part and reports it, or adds and reports none. -/
theorem PartsAction.runs_run (place : List Nat) (action : PartsAction) :
    Runs (action.run place) (Reports (·.reporter == .parts) Parts.Gains) := by
  cases action with
  | dialogue body => exact Parts.runs_dialogue body place
  | branch body => exact Parts.runs_branchWith false body place
  | branchWith waitForAll body => exact Parts.runs_branchWith waitForAll body place
  | background path => exact Runs.reports_behind_require fun _ => Parts.runs_append rfl
  | sprite path => exact Runs.reports_behind_require fun _ => Parts.runs_append rfl
  | fail message =>
    apply (runs_failWith message).mono
    rintro b result c added ⟨rfl, rfl, rfl⟩
    exact .failed rfl

/-- The parts of a scene are numbered in their order, without gap or repetition. -/
theorem PartsAction.tells_runAll (place : List Nat) (steps : PartsProgram) :
    Runs (PartsAction.runAll place steps) fun b _ c added =>
      Tells (·.reporter == .parts) Parts.parts (fun (part, number) => [.appending part.kind number])
        b c added := by
  apply tells_performAll
  intro place action
  apply (PartsAction.runs_run place action).mono
  intro b result c added hadded
  cases hadded with
  | @succeeded c record inner hheard hinner hfits =>
    obtain ⟨part, hc, rfl, _⟩ := hfits
    apply Tells.of_gained hc
    rw [reported_append, hinner, hc, List.length_append]
    rfl
  | failed hinner => exact .refl hinner

def Part.account (part : Part) (number : Nat) : List Record :=
  part.closings ++ [.appending part.kind number]

/-- The part that is gained is told with its choices before it. -/
theorem Parts.tells_of_gains {b c : Parts} {record : Record} {inner : List Event}
    (h : Parts.Gains b c record inner) :
    Tells (·.reporter != .dialogue) Parts.parts (fun (part, number) => part.account number) b c
      (inner ++ [.record record]) := by
  obtain ⟨part, hc, rfl, hinner⟩ := h
  apply Tells.of_gained hc
  rw [reported_append, hinner, hc, List.length_append]
  rfl

/-- When none of the steps of a scope has failed, its records tell all that has been gained. -/
theorem PartsAction.tells_runAll_of_none_failed (place : List Nat) (steps : PartsProgram) :
    Runs (PartsAction.runAll place steps) fun b _ c added =>
      (∀ i, place ++ [i] ∉ failedPlaces added) →
        Tells (·.reporter != .dialogue) Parts.parts (fun (part, number) => part.account number)
          b c added := by
  apply runs_performAll
  · exact fun b _ => .refl rfl
  · intro b c added result d more hadded hmore hnone
    have hsplit : failedPlaces (added ++ more) = failedPlaces added ++ failedPlaces more :=
      List.filterMap_append
    rw [hsplit] at hnone
    exact (hadded fun i h => hnone i (List.mem_append_left _ h)).trans
      (hmore fun i h => hnone i (List.mem_append_right _ h))
  · intro i step _
    apply (PartsAction.runs_run (place ++ [i]) step.action).perform
    intro b result c added hadded hnone
    cases hadded with
    | succeeded hheard hinner hfits => exact (Parts.tells_of_gains hfits).finished _ _ _ _
    | failed hinner =>
      apply (hnone i (List.mem_filterMap.mpr _)).elim
      exact ⟨_, List.mem_append_right _ (List.mem_singleton_self _), rfl⟩

/-- So they do when the scope has come to its end and catches nothing. -/
theorem PartsAction.tells_runAll_of_none_caught (place : List Nat) {steps : PartsProgram}
    (h : ∀ step ∈ steps, step.isCaught = false) :
    Runs (PartsAction.runAll place steps) fun b result c added => result.isOk = true →
      Tells (·.reporter != .dialogue) Parts.parts (fun (part, number) => part.account number)
        b c added := by
  apply runs_performAll
  · exact fun b _ => .refl rfl
  · intro b c added result d more hadded hmore hok
    exact (hadded rfl).trans (hmore hok)
  · intro i step hstep
    apply (PartsAction.runs_run (place ++ [i]) step.action).perform
    intro b result c added hadded hok
    rw [h step hstep] at hok
    cases hadded with
    | succeeded hheard hinner hfits => exact (Parts.tells_of_gains hfits).finished _ _ _ _
    | failed hinner => cases hok

namespace Stage

/-- It is only reported that parts are replaced when there were any, and when they are. -/
theorem runs_parts (place : List Nat) (steps : PartsProgram) :
    Runs (Stage.parts (PartsAction.runAll place steps)) fun stage result _ added =>
      reported (·.reporter == .scene) added =
        if result.isOk && !stage.scene.parts.isEmpty then [.replacing stage.scene.parts.length]
        else [] := by
  have hlogs : Logs (fun record => (record.reporter == .scene) = false)
      (PartsAction.runAll place steps) :=
    PartsAction.logs_runAll (fun _ => rfl) (fun _ _ => rfl) (fun _ _ => rfl) place steps
  have hbody := hlogs.unheard fun _ => id
  intro s
  cases hrun : PartsAction.runAll place steps ⟨{}, s.journal⟩ with
  | error e t =>
    have hparts := parts_of_error hrun
    obtain ⟨added, hadded, hsilent⟩ := hbody.of_error hrun
    rw [journal_of_error hparts, outcome_eq_error_iff.mpr ⟨_, hparts, rfl⟩]
    exact ⟨added, hadded, hsilent⟩
  | ok _ t =>
    have hparts := parts_of_ok hrun
    obtain ⟨added, hadded, hsilent⟩ := hbody.of_ok hrun
    rw [journal_of_ok hparts, outcome_eq_ok_iff.mpr ⟨_, hparts, rfl⟩]
    refine ⟨added ++ _, by rw [hadded, List.append_assoc], ?_⟩
    refine reported_append.trans ?_
    rw [hsilent]
    cases s.built.scene.parts.isEmpty <;> rfl

end Stage

/-- A choice without a name is caught inside the branch. -/
def reportedSteps : PartsProgram :=
  [⟨.branch
      [⟨.option "A" [⟨.monologue (.say { text := [.literal "a"] } false .done), false⟩], false⟩,
        ⟨.option "" [], true⟩], false⟩,
    ⟨.sprite "s.png", false⟩]

def markedSteps : PartsProgram := reportedSteps.map fun step => { step with isCaught := true }

def reportedParts : List Part :=
  [.branch [⟨"A", [⟨"narrator", "a", none⟩]⟩] false, .imageChange ⟨"", "s.png"⟩]

def reportedRecords : List Record :=
  [.choiceClosed "A" 1, .appending .branch 1, .appending .imageChange 2]

end SceneScript
