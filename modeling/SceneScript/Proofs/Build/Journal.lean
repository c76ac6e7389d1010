import SceneScript.Proofs.Build.Outcome

/-!
What operations add to the journal. It only ever grows, whether an operation succeeds or fails, and
a nested builder goes on with the journal of the one around it; so the records of a scope are those
of its steps.
-/
namespace SceneScript

def Event.record? : Event → Option Record
  | .record told => some told
  | _ => none

def reported (isHeard : Record → Bool) (events : List Event) : List Record :=
  (events.filterMap Event.record?).filter isHeard

section

variable {isHeard : Record → Bool} {events more : List Event}

@[simp] theorem reported_append :
    reported isHeard (events ++ more) = reported isHeard events ++ reported isHeard more := by
  simp [reported]

/-- Finished steps are noted, but are no records. -/
@[simp] theorem reported_finished (place : List Nat) (step : String) (progress : Progress)
    (error : Option SceneError) : reported isHeard [.finished place step progress error] = [] :=
  rfl

theorem reported_eq_nil (h : ∀ record, .record record ∈ events → isHeard record = false) :
    reported isHeard events = [] := by
  rw [reported, List.filter_eq_nil_iff]
  intro record hrecord
  obtain ⟨event, hevent, hsome⟩ := List.mem_filterMap.mp hrecord
  cases event with
  | record other =>
    obtain rfl := Option.some.inj hsome
    simp [h other hevent]
  | finished place step progress error => cases hsome
  | snapshot scene => cases hsome

end

namespace Build

variable {α β γ : Type}

/-- The journal that is left, also when the operation fails. -/
def journal (body : Build β α) (s : Session β) : List Event :=
  match body s with
  | .ok _ t => t.journal
  | .error _ t => t.journal

/-- The journal that is left is that of the final session. -/
theorem journal_of_ok {body : Build β α} {s t : Session β} {a : α} (h : body s = .ok a t) :
    body.journal s = t.journal := by
  rw [journal, h]

theorem journal_of_error {body : Build β α} {s t : Session β} {e : SceneError}
    (h : body s = .error e t) : body.journal s = t.journal := by
  rw [journal, h]

theorem journal_bind_of_ok {body : Build β α} {next : α → Build β γ} {s t : Session β} {a : α}
    (h : body s = .ok a t) : journal (body >>= next) s = (next a).journal t := by
  rw [journal, bind_of_ok h, journal]

/-- What comes behind a failure adds nothing to the journal. -/
theorem journal_bind_of_error {body : Build β α} {next : α → Build β γ} {s t : Session β}
    {e : SceneError} (h : body s = .error e t) : journal (body >>= next) s = t.journal := by
  rw [journal, bind_of_error h]

/-- A nested builder goes on with the journal, and leaves it behind. -/
theorem journal_within (blank : γ) (body : Build γ Unit) (s : Session β) :
    journal (within blank body) s = body.journal ⟨blank, s.journal⟩ := by
  unfold journal within
  cases body ⟨blank, s.journal⟩ <;> rfl

def failure : Except SceneError α → Option SceneError
  | .ok _ => none
  | .error e => some e

/-- The end of a step is noted after everything that the step has noted. -/
theorem journal_perform (place : List Nat) (step : String) (progress : β → Progress)
    (isCaught : Bool) (action : Build β Unit) (s : Session β) :
    (perform place step progress isCaught action).journal s = action.journal s ++
      [.finished place step (progress (action.outcome s).2) (failure (action.outcome s).1)] := by
  unfold journal outcome perform
  cases action s with
  | ok a t => rfl
  | error e t => cases isCaught <;> rfl

def Logs (R : Record → Prop) (body : Build β α) : Prop :=
  ∀ s : Session β, ∃ added, body.journal s = s.journal ++ added ∧
    ∀ record, .record record ∈ added → R record

variable {R : Record → Prop}

/-- An operation that leaves the journal as it was. -/
theorem logs_of_eq {body : Build β α} (h : ∀ s, body.journal s = s.journal) : Logs R body := by
  intro s
  exact ⟨[], by rw [h s, List.append_nil], by simp⟩

theorem Logs.bind {body : Build β α} {next : α → Build β γ} (h : Logs R body)
    (hnext : ∀ a, Logs R (next a)) : Logs R (body >>= next) := by
  intro s
  obtain ⟨added, hadded, hrecords⟩ := h s
  cases hbody : body s with
  | ok a t =>
    rw [journal_of_ok hbody] at hadded
    obtain ⟨others, hothers, hbehind⟩ := hnext a t
    refine ⟨added ++ others, ?_, ?_⟩
    · rw [journal_bind_of_ok hbody, hothers, hadded, List.append_assoc]
    · intro record hrecord
      rcases List.mem_append.mp hrecord with hrecord | hrecord
      · exact hrecords record hrecord
      · exact hbehind record hrecord
  | error e t =>
    rw [journal_of_error hbody] at hadded
    exact ⟨added, by rw [journal_bind_of_error hbody, hadded], hrecords⟩

theorem logs_pure (a : α) : Logs R (pure a : Build β α) := logs_of_eq fun _ => rfl

theorem logs_throw (e : SceneError) : Logs R (throw e : Build β α) := logs_of_eq fun _ => rfl

theorem logs_built : Logs R (built : Build β β) := logs_of_eq fun _ => rfl

theorem logs_update (f : β → β) : Logs R (update f) := logs_of_eq fun _ => rfl

theorem logs_require (checked : Except InvalidInput α) : Logs R (require checked : Build β α) := by
  cases checked with
  | ok a => exact logs_pure a
  | error fault => exact logs_throw _

theorem logs_failWith (message : String) : Logs R (failWith message : Build β Unit) :=
  logs_throw _

theorem logs_log {record : Record} (h : R record) : Logs R (log record : Build β Unit) := by
  intro s
  refine ⟨[.record record], rfl, fun other hother => ?_⟩
  obtain rfl : other = record := by simpa using hother
  exact h

theorem logs_snapshot (scene : Scene) : Logs R (note (.snapshot scene) : Build β Unit) :=
  fun _ => ⟨[.snapshot scene], rfl, by simp⟩

/-- Records made in a nested scope stay in the journal, whether the scope is kept or lost. -/
theorem Logs.within {body : Build γ Unit} (h : Logs R body) (blank : γ) :
    Logs R (within blank body : Build β γ) := by
  intro s
  rw [journal_within]
  exact h ⟨blank, s.journal⟩

/-- The note that a step is finished is no record. -/
theorem Logs.perform {action : Build β Unit} (h : Logs R action) (place : List Nat)
    (step : String) (progress : β → Progress) (isCaught : Bool) :
    Logs R (perform place step progress isCaught action) := by
  intro s
  obtain ⟨added, hadded, hrecords⟩ := h s
  refine ⟨added ++ [_], by rw [journal_perform, hadded, List.append_assoc], ?_⟩
  intro record hrecord
  exact hrecords record (by simpa using hrecord)

/-- The records of a scope are those of its steps. -/
theorem logs_performAll {action : Type} {place : List Nat} {name : action → String}
    {progress : β → Progress} {run : List Nat → action → Build β Unit} {i : Nat}
    {steps : List (Step action)} (h : ∀ place, ∀ step ∈ steps, Logs R (run place step.action)) :
    Logs R (performAll place name progress run i steps) := by
  induction steps generalizing i with
  | nil => exact logs_pure ()
  | cons step steps ih =>
    rw [performAll]
    have hstep := h (place ++ [i]) step (List.mem_cons_self ..)
    exact (hstep.perform _ _ _ _).bind fun _ =>
      ih fun place other hother => h place other (List.mem_cons_of_mem step hother)

end Build

open Build

namespace MonologueProgram

variable {R : Record → Prop}

theorem logs_sayAll (calls : List LineCall) : Logs R (sayAll calls) := by
  induction calls with
  | nil => exact logs_pure ()
  | cons call calls ih =>
    apply (logs_require _).bind
    intro line
    exact (logs_update _).bind fun _ => ih

/-- Nothing is reported from inside a monologue. -/
theorem logs_run (program : MonologueProgram) (place : List Nat) (i : Nat) :
    Logs R (program.run place i) := by
  induction program generalizing place i with
  | done => exact logs_pure ()
  | say call isCaught next ih =>
    have hsay : Logs R (do Monologue.say (← require call.line)) :=
      (logs_require _).bind fun _ => logs_update _
    exact (hsay.perform _ _ _ _).bind fun _ => ih place (i + 1)
  | chain calls isCaught next ih =>
    exact ((logs_sayAll calls).perform _ _ _ _).bind fun _ => ih place (i + 1)
  | monologue body isCaught next ihbody ih =>
    have hinner : Logs R (Monologue.monologue (body.run (place ++ [i]) 0)) :=
      ((ihbody (place ++ [i]) 0).within {}).bind fun _ => logs_update _
    exact (hinner.perform _ _ _ _).bind fun _ => ih place (i + 1)
  | fail message isCaught next ih =>
    exact ((logs_failWith message).perform _ _ _ _).bind fun _ => ih place (i + 1)

end MonologueProgram

/-- Records of the builders, which say nothing about writing. -/
def Record.OfBuilder : Record → Prop
  | .writeSkipped => False
  | .written _ _ => False
  | _ => True

section

variable {R : Record → Prop} (hflattening : ∀ lines, R (.flattening lines))

include hflattening

theorem DialogueAction.logs_run (place : List Nat) (action : DialogueAction) :
    Logs R (action.run place) := by
  cases action with
  | line call => exact (logs_require _).bind fun _ => logs_update _
  | narrate text =>
    apply (logs_require _).bind
    intro text
    exact (logs_require _).bind fun _ => logs_update _
  | monologue body =>
    apply ((body.logs_run place 0).within {}).bind
    intro inner
    exact (logs_log (hflattening _)).bind fun _ => logs_update _
  | fail message => exact logs_failWith message

theorem DialogueAction.logs_runAll (place : List Nat) (steps : DialogueProgram) :
    Logs R (DialogueAction.runAll place steps) :=
  logs_performAll fun place step _ => step.action.logs_run hflattening place

variable (hclosed : ∀ name lines, R (.choiceClosed name lines))

include hclosed

theorem ChoicesAction.logs_run (place : List Nat) (action : ChoicesAction) :
    Logs R (action.run place) := by
  cases action with
  | option name body =>
    apply (logs_require _).bind
    intro _
    apply ((DialogueAction.logs_runAll hflattening place body).within {}).bind
    intro inner
    exact (logs_log (hclosed _ _)).bind fun _ => logs_update _
  | fail message => exact logs_failWith message

theorem ChoicesAction.logs_runAll (place : List Nat) (steps : ChoicesProgram) :
    Logs R (ChoicesAction.runAll place steps) :=
  logs_performAll fun place step _ => step.action.logs_run hflattening hclosed place

variable (happending : ∀ kind number, R (.appending kind number))

include happending

omit hflattening hclosed in
theorem Parts.logs_append (part : Part) : Logs R (Parts.append part) := by
  apply logs_built.bind
  intro parts
  exact (logs_log (happending _ _)).bind fun _ => logs_update _

theorem Parts.logs_branchWith (waitForAll : Bool) (place : List Nat) (body : ChoicesProgram) :
    Logs R (Parts.branchWith waitForAll (ChoicesAction.runAll place body)) := by
  apply ((ChoicesAction.logs_runAll hflattening hclosed place body).within {}).bind
  intro inner
  exact Parts.logs_append happending _

/-- The builders make three kinds of records, and a step of parts reports nothing else. -/
theorem PartsAction.logs_run (place : List Nat) (action : PartsAction) :
    Logs R (action.run place) := by
  have happend := Parts.logs_append happending
  have hbranch := Parts.logs_branchWith hflattening hclosed happending
  cases action with
  | dialogue body =>
    apply ((DialogueAction.logs_runAll hflattening place body).within {}).bind
    intro inner
    exact happend _
  | branch body => exact hbranch false place body
  | branchWith waitForAll body => exact hbranch waitForAll place body
  | background path => exact (logs_require _).bind fun _ => happend _
  | sprite path => exact (logs_require _).bind fun _ => happend _
  | fail message => exact logs_failWith message

theorem PartsAction.logs_runAll (place : List Nat) (steps : PartsProgram) :
    Logs R (PartsAction.runAll place steps) :=
  logs_performAll fun place step _ =>
    step.action.logs_run hflattening hclosed happending place

end

namespace Stage

variable {body : Build Parts Unit} {s : Session Stage} {t : Session Parts}

theorem parts_of_ok (h : body ⟨{}, s.journal⟩ = .ok () t) :
    Stage.parts body s = .ok ()
      ⟨{ s.built with scene := { s.built.scene with parts := t.built.parts } },
        t.journal ++ if s.built.scene.parts.isEmpty then []
          else [.record (.replacing s.built.scene.parts.length)]⟩ := by
  have hstage : built { s with journal := t.journal } =
      .ok s.built { s with journal := t.journal } := rfl
  rw [Stage.parts, bind_of_ok (within_of_ok h), bind_of_ok hstage]
  dsimp only
  split
  · rw [List.append_nil]
    rfl
  · rfl

/-- A body that fails leaves its journal behind and nothing else. -/
theorem parts_of_error {e : SceneError} (h : body ⟨{}, s.journal⟩ = .error e t) :
    Stage.parts body s = .error e { s with journal := t.journal } :=
  bind_of_error (within_of_error h)

end Stage

end SceneScript
