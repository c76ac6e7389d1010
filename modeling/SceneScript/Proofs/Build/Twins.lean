import Mathlib.Data.List.Forall2
import SceneScript.Proofs.Build.Journal

/-!
Two runs side by side. A view says what counts of a builder. Twins are operations that cannot be
told apart by what counts: they succeed with the same value or fail with the same error, and the
builders they leave look the same. Of the journal, it counts what has been reported, but for the
reports of files that were written.
-/
namespace SceneScript

namespace Build

variable {α β γ δ : Type}

structure Alike (view : β → δ) (s t : Session β) : Prop where
  built : view s.built = view t.built
  journal : reported (·.level != .info) s.journal = reported (·.level != .info) t.journal

inductive AlikeResults (view : β → δ) : EStateM.Result SceneError (Session β) α →
    EStateM.Result SceneError (Session β) α → Prop
  | ok {a : α} {s t : Session β} (h : Alike view s t) : AlikeResults view (.ok a s) (.ok a t)
  | error {e : SceneError} {s t : Session β} (h : Alike view s t) :
      AlikeResults view (.error e s) (.error e t)

def Twins (view : β → δ) (op twin : Build β α) : Prop :=
  ∀ s t, Alike view s t → AlikeResults view (op s) (twin t)

variable {view : β → δ} {op twin other : Build β α}

theorem Alike.symm {s t : Session β} (h : Alike view s t) : Alike view t s :=
  ⟨h.built.symm, h.journal.symm⟩

theorem Alike.trans {s t u : Session β} (h : Alike view s t) (h' : Alike view t u) :
    Alike view s u :=
  ⟨h.built.trans h'.built, h.journal.trans h'.journal⟩

section

variable {r r' r'' : EStateM.Result SceneError (Session β) α}

theorem AlikeResults.symm (h : AlikeResults view r r') : AlikeResults view r' r := by
  cases h with
  | ok h => exact .ok h.symm
  | error h => exact .error h.symm

theorem AlikeResults.trans (h : AlikeResults view r r') (h' : AlikeResults view r' r'') :
    AlikeResults view r r'' := by
  cases h with
  | ok h =>
    cases h' with
    | ok h' => exact .ok (h.trans h')
  | error h =>
    cases h' with
    | error h' => exact .error (h.trans h')

end

theorem Twins.symm (h : Twins view op twin) : Twins view twin op :=
  fun s t hst => (h t s hst.symm).symm

theorem Twins.trans (h : Twins view op twin) (h' : Twins view twin other) :
    Twins view op other :=
  fun s t hst => (h s s ⟨rfl, rfl⟩).trans (h' s t hst)

/-- Twins both succeed or both fail. -/
theorem Twins.results {s t : Session β} (h : Twins view op twin) (hst : Alike view s t) :
    (∃ a s' t', op s = .ok a s' ∧ twin t = .ok a t' ∧ Alike view s' t') ∨
      ∃ e s' t', op s = .error e s' ∧ twin t = .error e t' ∧ Alike view s' t' := by
  have hresults := h s t hst
  generalize op s = r at hresults
  generalize twin t = r' at hresults
  cases hresults with
  | ok hresult => exact .inl ⟨_, _, _, rfl, rfl, hresult⟩
  | error hresult => exact .inr ⟨_, _, _, rfl, rfl, hresult⟩

/-- What twins come to and what they leave in the journal. -/
theorem Twins.outcome {s t : Session β} (h : Twins view op twin) (hst : Alike view s t) :
    (op.outcome s).1 = (twin.outcome t).1 ∧
      view (op.outcome s).2 = view (twin.outcome t).2 ∧
      reported (·.level != .info) (op.journal s) =
        reported (·.level != .info) (twin.journal t) := by
  obtain ⟨a, s', t', hs, ht, hresult⟩ | ⟨e, s', t', hs, ht, hresult⟩ := h.results hst
  · rw [outcome_eq_ok_iff.mpr ⟨_, hs, rfl⟩, outcome_eq_ok_iff.mpr ⟨_, ht, rfl⟩,
      journal_of_ok hs, journal_of_ok ht]
    exact ⟨rfl, hresult.built, hresult.journal⟩
  · rw [outcome_eq_error_iff.mpr ⟨_, hs, rfl⟩, outcome_eq_error_iff.mpr ⟨_, ht, rfl⟩,
      journal_of_error hs, journal_of_error ht]
    exact ⟨rfl, hresult.built, hresult.journal⟩

/-- Twins that go on with twins are twins. -/
theorem Twins.bind {next nextTwin : α → Build β γ} (h : Twins view op twin)
    (hnext : ∀ a, Twins view (next a) (nextTwin a)) :
    Twins view (op >>= next) (twin >>= nextTwin) := by
  intro s t hst
  obtain ⟨a, s', t', hs, ht, hresult⟩ | ⟨e, s', t', hs, ht, hresult⟩ := h.results hst
  · rw [bind_of_ok hs, bind_of_ok ht]
    exact hnext a s' t' hresult
  · rw [bind_of_error hs, bind_of_error ht]
    exact .error hresult

theorem twins_pure (a : α) : Twins view (pure a) (pure a) := fun _ _ hst => .ok hst

theorem twins_throw (e : SceneError) : Twins view (throw e : Build β α) (throw e) :=
  fun _ _ hst => .error hst

theorem twins_update {f g : β → β} (h : ∀ b c, view b = view c → view (f b) = view (g c)) :
    Twins view (update f) (update g) :=
  fun _ _ hst => .ok ⟨h _ _ hst.built, hst.journal⟩

theorem twins_update_self (f : β → β) : Twins id (update f) (update f) :=
  twins_update fun _ _ h => congrArg f h

theorem twins_require (checked : Except InvalidInput α) :
    Twins view (require checked) (require checked) := by
  cases checked with
  | ok a => exact twins_pure a
  | error fault => exact twins_throw _

theorem twins_failWith (message : String) :
    Twins view (failWith message : Build β Unit) (failWith message) :=
  twins_throw _

theorem twins_log (record : Record) : Twins view (log record) (log record) := by
  intro s t hst
  refine .ok ⟨hst.built, ?_⟩
  rw [reported_append, reported_append, hst.journal]

/-- Nested scopes in which nothing differs cannot be told apart from outside. -/
theorem Twins.within {body bodyTwin : Build γ Unit} (h : Twins id body bodyTwin) (blank : γ) :
    Twins view (within blank body) (within blank bodyTwin) := by
  intro s t hst
  have hblank : Alike id (⟨blank, s.journal⟩ : Session γ) ⟨blank, t.journal⟩ := ⟨rfl, hst.journal⟩
  obtain ⟨_, s', t', hs, ht, hresult⟩ | ⟨e, s', t', hs, ht, hresult⟩ := h.results hblank
  · rw [within_of_ok hs, within_of_ok ht, show s'.built = t'.built from hresult.built]
    exact .ok ⟨hst.built, hresult.journal⟩
  · rw [within_of_error hs, within_of_error ht]
    exact .error ⟨hst.built, hresult.journal⟩

/-- The end of a step is not reported. -/
theorem Alike.finished {s t : Session β} (h : Alike view s t) (place place' : List Nat)
    (step step' : String) (progress progress' : Progress) (error error' : Option SceneError) :
    Alike view ⟨s.built, s.journal ++ [.finished place step progress error]⟩
      ⟨t.built, t.journal ++ [.finished place' step' progress' error']⟩ := by
  refine ⟨h.built, ?_⟩
  rw [reported_append, reported_append, h.journal, reported_finished, reported_finished]

/-- The name of a step does not count, and neither does its place. -/
theorem Twins.perform {action actionTwin : Build β Unit} (h : Twins view action actionTwin)
    (place place' : List Nat) (step step' : String) (progress progress' : β → Progress)
    (isCaught : Bool) :
    Twins view (perform place step progress isCaught action)
      (perform place' step' progress' isCaught actionTwin) := by
  intro s t hst
  obtain ⟨_, s', t', hs, ht, hresult⟩ | ⟨e, s', t', hs, ht, hresult⟩ := h.results hst
  · rw [Build.perform, Build.perform, hs, ht]
    exact .ok (hresult.finished _ _ _ _ _ _ _ _)
  · rw [Build.perform, Build.perform, hs, ht]
    cases isCaught with
    | true => exact .ok (hresult.finished _ _ _ _ _ _ _ _)
    | false => exact .error (hresult.finished _ _ _ _ _ _ _ _)

/-- Scopes are twins when their steps are. -/
theorem twins_performAll {place : List Nat} {name : α → String} {progress : β → Progress}
    {run : List Nat → α → Build β Unit} {i : Nat} {steps others : List (Step α)}
    (h : List.Forall₂ (fun step twin => step.isCaught = twin.isCaught ∧
      ∀ place, Twins view (run place step.action) (run place twin.action)) steps others) :
    Twins view (performAll place name progress run i steps)
      (performAll place name progress run i others) := by
  induction h generalizing i with
  | nil => exact twins_pure ()
  | cons hstep _ ih =>
    rw [performAll, performAll, hstep.1]
    exact ((hstep.2 _).perform _ _ _ _ _ _ _).bind fun _ => ih

end Build

open Build

/-! Programs without flags are twins of themselves -/

namespace MonologueProgram

theorem twins_sayAll (calls : List LineCall) :
    Twins (id : Monologue → Monologue) (sayAll calls) (sayAll calls) := by
  induction calls with
  | nil => exact twins_pure ()
  | cons call calls ih =>
    apply (twins_require _).bind
    intro line
    exact (twins_update_self _).bind fun _ => ih

/-- What a monologue comes to does not depend on the journal that it starts with. -/
theorem twins_run (program : MonologueProgram) (place : List Nat) (i : Nat) :
    Twins id (program.run place i) (program.run place i) := by
  induction program generalizing place i with
  | done => exact twins_pure ()
  | say call isCaught next ih =>
    have hsay : Twins id (do Monologue.say (← require call.line))
        (do Monologue.say (← require call.line)) :=
      (twins_require _).bind fun _ => twins_update_self _
    exact (hsay.perform _ _ _ _ _ _ _).bind fun _ => ih place (i + 1)
  | chain calls isCaught next ih =>
    exact ((twins_sayAll calls).perform _ _ _ _ _ _ _).bind fun _ => ih place (i + 1)
  | monologue body isCaught next ihbody ih =>
    have hinner : Twins id (Monologue.monologue (body.run (place ++ [i]) 0))
        (Monologue.monologue (body.run (place ++ [i]) 0)) :=
      ((ihbody (place ++ [i]) 0).within {}).bind fun _ => twins_update_self _
    exact (hinner.perform _ _ _ _ _ _ _).bind fun _ => ih place (i + 1)
  | fail message isCaught next ih =>
    exact ((twins_failWith message).perform _ _ _ _ _ _ _).bind fun _ => ih place (i + 1)

end MonologueProgram

theorem DialogueAction.twins_run (place : List Nat) (action : DialogueAction) :
    Twins id (action.run place) (action.run place) := by
  cases action with
  | line call => exact (twins_require _).bind fun _ => twins_update_self _
  | narrate text =>
    apply (twins_require _).bind
    intro text
    exact (twins_require _).bind fun _ => twins_update_self _
  | monologue body =>
    apply ((body.twins_run place 0).within {}).bind
    intro inner
    exact (twins_log _).bind fun _ => twins_update_self _
  | fail message => exact twins_failWith message

theorem DialogueAction.twins_runAll (place : List Nat) (steps : DialogueProgram) :
    Twins id (runAll place steps) (runAll place steps) :=
  twins_performAll (List.forall₂_same.mpr fun step _ =>
    ⟨rfl, fun place => twins_run place step.action⟩)

theorem ChoicesAction.twins_run (place : List Nat) (action : ChoicesAction) :
    Twins id (action.run place) (action.run place) := by
  cases action with
  | option name body =>
    apply (twins_require _).bind
    intro _
    apply ((DialogueAction.twins_runAll place body).within {}).bind
    intro dialogue
    exact (twins_log _).bind fun _ => twins_update_self _
  | fail message => exact twins_failWith message

/-- In choices nothing depends on the journal, so a program of choices is its own twin. -/
theorem ChoicesAction.twins_runAll (place : List Nat) (steps : ChoicesProgram) :
    Twins id (runAll place steps) (runAll place steps) :=
  twins_performAll (List.forall₂_same.mpr fun step _ =>
    ⟨rfl, fun place => twins_run place step.action⟩)

end SceneScript
