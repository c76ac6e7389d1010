import SceneScript.Build.Program

/-!
What an operation comes to: its result and what is built then. The journal is left out, so that
runs which note different things can be compared.
-/
namespace SceneScript

namespace Build

variable {α β γ : Type}

/-- The result and what is built, also when the operation fails. -/
def outcome (body : Build β α) (s : Session β) : Except SceneError α × β :=
  match body s with
  | .ok a t => (.ok a, t.built)
  | .error e t => (.error e, t.built)

theorem outcome_eq_ok_iff {body : Build β α} {s : Session β} {a : α} {b : β} :
    body.outcome s = (.ok a, b) ↔ ∃ t, body s = .ok a t ∧ t.built = b := by
  unfold outcome
  cases body s <;> simp [and_assoc]

theorem outcome_eq_error_iff {body : Build β α} {s : Session β} {e : SceneError} {b : β} :
    body.outcome s = (.error e, b) ↔ ∃ t, body s = .error e t ∧ t.built = b := by
  unfold outcome
  cases body s <;> simp [and_assoc]

/-- Behind a success the run goes on with its value, from where it has left off. -/
theorem bind_of_ok {body : Build β α} {next : α → Build β γ} {s t : Session β} {a : α}
    (h : body s = .ok a t) : (body >>= next) s = next a t := by
  change EStateM.bind body next s = _
  rw [EStateM.bind, h]

theorem bind_of_error {body : Build β α} {next : α → Build β γ} {s t : Session β}
    {e : SceneError} (h : body s = .error e t) : (body >>= next) s = .error e t := by
  change EStateM.bind body next s = _
  rw [EStateM.bind, h]

/-- What the nested builder has noted stays in the journal, and what it has built is handed over. -/
theorem within_of_ok {blank : γ} {body : Build γ Unit} {s : Session β} {t : Session γ}
    (h : body ⟨blank, s.journal⟩ = .ok () t) :
    within blank body s = .ok t.built { s with journal := t.journal } := by
  rw [within, h]

/-- What the nested builder has noted stays in the journal, and what it has built is lost. -/
theorem within_of_error {blank : γ} {body : Build γ Unit} {s : Session β} {t : Session γ}
    {e : SceneError} (h : body ⟨blank, s.journal⟩ = .error e t) :
    within blank body s = .error e { s with journal := t.journal } := by
  rw [within, h]

theorem outcome_bind_of_ok {body : Build β α} {next : α → Build β γ} {s t : Session β} {a : α}
    (h : body s = .ok a t) : outcome (body >>= next) s = (next a).outcome t := by
  rw [outcome, bind_of_ok h, outcome]

/-- A failure keeps what was built before it. -/
theorem outcome_bind_of_error {body : Build β α} {next : α → Build β γ} {s t : Session β}
    {e : SceneError} (h : body s = .error e t) :
    outcome (body >>= next) s = (.error e, t.built) := by
  rw [outcome, bind_of_error h]

@[simp] theorem outcome_pure (a : α) (s : Session β) :
    outcome (pure a : Build β α) s = (.ok a, s.built) := rfl

@[simp] theorem outcome_throw (e : SceneError) (s : Session β) :
    outcome (throw e : Build β α) s = (.error e, s.built) := rfl

@[simp] theorem outcome_note (event : Event) (s : Session β) :
    outcome (note event) s = (.ok (), s.built) := rfl

@[simp] theorem outcome_built (s : Session β) : outcome built s = (.ok s.built, s.built) := rfl

@[simp] theorem outcome_update (f : β → β) (s : Session β) :
    outcome (update f) s = (.ok (), f s.built) := rfl

@[simp] theorem outcome_require (checked : Except InvalidInput α) (s : Session β) :
    outcome (require checked) s = (checked.mapError .invalidInput, s.built) := by
  cases checked <;> rfl

/-- What encloses a nested builder is not touched by what happens in there. -/
@[simp] theorem outcome_within (blank : γ) (body : Build γ Unit) (s : Session β) :
    outcome (within blank body) s =
      ((body.outcome ⟨blank, s.journal⟩).1.map fun _ => (body.outcome ⟨blank, s.journal⟩).2,
        s.built) := by
  unfold outcome within
  cases body ⟨blank, s.journal⟩ <;> rfl

/-- A step fails when its action fails and nothing catches it. -/
@[simp] theorem outcome_perform (place : List Nat) (step : String) (progress : β → Progress)
    (isCaught : Bool) (action : Build β Unit) (s : Session β) :
    (perform place step progress isCaught action).outcome s =
      (if isCaught then .ok () else (action.outcome s).1, (action.outcome s).2) := by
  unfold outcome perform
  cases action s with
  | ok a t => cases isCaught <;> rfl
  | error e t => cases isCaught <;> rfl

end Build

end SceneScript
