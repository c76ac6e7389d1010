import SceneScript.Proofs.Build.Outcome

/-!
Failures that leave no trace. Every operation of a builder first does what may fail, on builders of
its own, and changes what is built in its last move only; so when it fails, nothing has changed,
whatever its body has done until then.
-/
namespace SceneScript

namespace Build

variable {α β γ : Type}

/-- What is built stays as it is when the operation fails. -/
def Atomic (op : Build β α) : Prop :=
  ∀ s e, (op.outcome s).1 = .error e → (op.outcome s).2 = s.built

/-- What is built stays as it is in any case. -/
def Quiet (op : Build β α) : Prop := ∀ s, (op.outcome s).2 = s.built

theorem Quiet.atomic {op : Build β α} (h : Quiet op) : Atomic op := fun s _ _ => h s

/-- Only the last move changes what is built. -/
theorem Quiet.bind_atomic {op : Build β α} {next : α → Build β γ} (h : Quiet op)
    (hnext : ∀ a, Atomic (next a)) : Atomic (op >>= next) := by
  intro s e herror
  cases hop : op s with
  | ok a t =>
    have ht := h s
    rw [outcome_eq_ok_iff.mpr ⟨t, hop, rfl⟩] at ht
    rw [outcome_bind_of_ok hop] at herror ⊢
    exact (hnext a t e herror).trans ht
  | error e' t =>
    have ht := h s
    rw [outcome_eq_error_iff.mpr ⟨t, hop, rfl⟩] at ht
    rw [outcome_bind_of_error hop]
    exact ht

theorem quiet_log (record : Record) : Quiet (log record : Build β Unit) := fun _ => rfl

theorem quiet_built : Quiet (built : Build β β) := fun _ => rfl

theorem quiet_failWith (message : String) : Quiet (failWith message : Build β Unit) :=
  fun _ => rfl

theorem quiet_require (checked : Except InvalidInput α) : Quiet (require checked : Build β α) := by
  intro s
  rw [outcome_require]

/-- What a nested builder does stays inside, even if it fails half-way. -/
theorem quiet_within (blank : γ) (body : Build γ Unit) : Quiet (within blank body : Build β γ) := by
  intro s
  rw [outcome_within]

theorem atomic_update (f : β → β) : Atomic (update f) := by
  intro s e herror
  simp at herror

end Build

open Build

theorem Monologue.atomic_say (line : Line) : Atomic (Monologue.say line) := atomic_update _

/-- The lines of a nested monologue are added all at once, or not at all. -/
theorem Monologue.atomic_monologue (body : Build Monologue Unit) :
    Atomic (Monologue.monologue body) := by
  apply (quiet_within {} body).bind_atomic
  intro inner
  exact atomic_update _

theorem Dialogue.atomic_line (line : Line) : Atomic (Dialogue.line line) := atomic_update _

/-- An empty text is refused before anything is added. -/
theorem Dialogue.atomic_narrate (text : String) : Atomic (Dialogue.narrate text) := by
  apply (quiet_require _).bind_atomic
  intro line
  exact Dialogue.atomic_line line

theorem Dialogue.atomic_monologue (body : Build Monologue Unit) :
    Atomic (Dialogue.monologue body) := by
  apply (quiet_within {} body).bind_atomic
  intro inner
  apply (quiet_log _).bind_atomic
  intro _
  exact atomic_update _

/-- The name is checked first and the dialogue is built apart, so a choice is added whole or not at
all. -/
theorem Choices.atomic_option (name : String) (body : Build Dialogue Unit) :
    Atomic (Choices.option name body) := by
  -- The name is checked before the body runs.
  apply (quiet_require _).bind_atomic
  intro choice
  apply (quiet_within {} body).bind_atomic
  intro inner
  apply (quiet_log _).bind_atomic
  intro _
  exact atomic_update _

namespace Parts

theorem atomic_append (part : Part) : Atomic (Parts.append part) := by
  apply quiet_built.bind_atomic
  intro parts
  apply (quiet_log _).bind_atomic
  intro _
  exact atomic_update _

theorem atomic_dialogue (body : Build Dialogue Unit) : Atomic (Parts.dialogue body) := by
  apply (quiet_within {} body).bind_atomic
  intro inner
  exact atomic_append _

/-- A branch is put behind the parts only when all its choices have been made. -/
theorem atomic_branchWith (waitForAll : Bool) (body : Build Choices Unit) :
    Atomic (Parts.branchWith waitForAll body) := by
  apply (quiet_within {} body).bind_atomic
  intro inner
  exact atomic_append _

theorem atomic_branch (body : Build Choices Unit) : Atomic (Parts.branch body) :=
  atomic_branchWith false body

theorem atomic_background (path : String) : Atomic (Parts.background path) := by
  apply (quiet_require _).bind_atomic
  intro _
  exact atomic_append _

theorem atomic_sprite (path : String) : Atomic (Parts.sprite path) := by
  apply (quiet_require _).bind_atomic
  intro _
  exact atomic_append _

end Parts

namespace Stage

theorem atomic_updateScene (f : Scene → Scene) : Atomic (Stage.updateScene f) := atomic_update _

/-- The parts of a scene are replaced only by a body that has succeeded. -/
theorem atomic_parts (body : Build Parts Unit) : Atomic (Stage.parts body) := by
  apply (quiet_within {} body).bind_atomic
  intro inner
  apply quiet_built.bind_atomic
  intro stage
  dsimp only
  split
  · exact atomic_updateScene _
  · apply (quiet_log _).bind_atomic
    intro _
    exact atomic_updateScene _

/-- A document that cannot be parsed leaves the scene as it was. -/
theorem atomic_parse (source : String) : Atomic (Stage.parse source) := by
  unfold Stage.parse
  split
  · exact atomic_updateScene _
  · exact Quiet.atomic fun _ => rfl

end Stage

/-! Steps of programs. A chain is several steps in one, and a step that writes leaves its trace in
the world; every other step is atomic. -/

theorem DialogueAction.atomic_run (place : List Nat) (action : DialogueAction) :
    Atomic (action.run place) := by
  cases action with
  | line call => exact (quiet_require _).bind_atomic Dialogue.atomic_line
  | narrate text => exact (quiet_require _).bind_atomic Dialogue.atomic_narrate
  | monologue body => exact Dialogue.atomic_monologue _
  | fail message => exact (quiet_failWith message).atomic

theorem ChoicesAction.atomic_run (place : List Nat) (action : ChoicesAction) :
    Atomic (action.run place) := by
  cases action with
  | option name body => exact Choices.atomic_option _ _
  | fail message => exact (quiet_failWith message).atomic

/-- A failed step leaves the parts as they were, whatever its nested programs do. -/
theorem PartsAction.atomic_run (place : List Nat) (action : PartsAction) :
    Atomic (action.run place) := by
  cases action with
  | dialogue body => exact Parts.atomic_dialogue _
  | branch body => exact Parts.atomic_branch _
  | branchWith waitForAll body => exact Parts.atomic_branchWith _ _
  | background path => exact Parts.atomic_background _
  | sprite path => exact Parts.atomic_sprite _
  | fail message => exact (quiet_failWith message).atomic

namespace SceneAction

def Writes : SceneAction → Prop
  | .write => True
  | .writeWith _ _ => True
  | _ => False

/-- Writers are left out since they change the world, which a failure does not undo. -/
theorem atomic_run (place : List Nat) {action : SceneAction} (h : ¬ action.Writes) :
    Atomic (action.run place) := by
  cases action with
  | version number => exact Stage.atomic_updateScene (·.withVersion number)
  | output path => exact Stage.atomic_updateScene (·.withOutput path)
  | parts body => exact Stage.atomic_parts _
  | snapshot => exact quiet_built.bind_atomic fun _ => Quiet.atomic fun _ => rfl
  | write => exact absurd trivial h
  | writeWith source writer => exact absurd trivial h
  | parse source => exact Stage.atomic_parse source
  | fail message => exact (quiet_failWith message).atomic

end SceneAction

end SceneScript
