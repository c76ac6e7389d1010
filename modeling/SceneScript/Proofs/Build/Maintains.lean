import SceneScript.Proofs.Build.Outcome

/-!
Invariants of builders. An operation maintains a property when it leads from what has the property
to what has it again, whether it succeeds or fails; what it returns can be described as well. A
program maintains what each of its steps maintains, whichever failures are caught.
-/
namespace SceneScript.Build

variable {α β γ : Type} {P : β → Prop}

def Maintains (P : β → Prop) (body : Build β α) (Q : α → Prop) : Prop :=
  ∀ s : Session β, P s.built →
    P (body.outcome s).2 ∧ ∀ a, (body.outcome s).1 = .ok a → Q a

/-- A property that both halves keep is kept by the whole, and the second half may rely on the value
of the first. -/
theorem Maintains.bind {body : Build β α} {next : α → Build β γ} {Q : α → Prop} {R : γ → Prop}
    (h : Maintains P body Q) (hnext : ∀ a, Q a → Maintains P (next a) R) :
    Maintains P (body >>= next) R := by
  intro s hs
  obtain ⟨hP, ha⟩ := h s hs
  cases hbody : body s with
  | ok a t =>
    have houtcome : body.outcome s = (.ok a, t.built) := outcome_eq_ok_iff.mpr ⟨t, hbody, rfl⟩
    rw [houtcome] at hP ha
    rw [outcome_bind_of_ok hbody]
    exact hnext a (ha a rfl) t hP
  | error e t =>
    have houtcome : body.outcome s = (.error e, t.built) :=
      outcome_eq_error_iff.mpr ⟨t, hbody, rfl⟩
    rw [houtcome] at hP
    rw [outcome_bind_of_error hbody]
    exact ⟨hP, fun c heq => absurd heq (by simp)⟩

/-- Two properties that are maintained each for itself. -/
theorem Maintains.and {I : β → Prop} {body : Build β α} {Q R : α → Prop} (h : Maintains P body Q)
    (h' : Maintains I body R) : Maintains (fun b => P b ∧ I b) body fun a => Q a ∧ R a := by
  intro s hs
  obtain ⟨hP, hQ⟩ := h s hs.1
  obtain ⟨hI, hR⟩ := h' s hs.2
  exact ⟨⟨hP, hI⟩, fun a ha => ⟨hQ a ha, hR a ha⟩⟩

theorem maintains_pure {Q : α → Prop} {a : α} (ha : Q a) : Maintains P (pure a) Q := by
  intro s hs
  refine ⟨hs, fun b heq => ?_⟩
  obtain rfl : a = b := by simpa using heq
  exact ha

theorem maintains_throw (e : SceneError) (Q : α → Prop) :
    Maintains P (throw e : Build β α) Q := by
  intro s hs
  exact ⟨hs, fun a heq => absurd heq (by simp)⟩

theorem maintains_note (event : Event) : Maintains P (note event) fun _ => True :=
  fun _ hs => ⟨hs, fun _ _ => trivial⟩

theorem maintains_log (record : Record) : Maintains P (log record) fun _ => True :=
  maintains_note _

theorem maintains_built : Maintains P built P := by
  intro s hs
  refine ⟨hs, fun b heq => ?_⟩
  obtain rfl : s.built = b := by simpa using heq
  exact hs

theorem maintains_update {f : β → β} (hf : ∀ b, P b → P (f b)) :
    Maintains P (update f) fun _ => True :=
  fun _ hs => ⟨hf _ hs, fun _ _ => trivial⟩

/-- What runs after a check may use that the check was passed. -/
theorem maintains_require (checked : Except InvalidInput α) :
    Maintains P (require checked) fun a => checked = .ok a := by
  intro s hs
  rw [outcome_require]
  refine ⟨hs, fun a heq => ?_⟩
  cases checked with
  | ok b => exact congrArg Except.ok (Except.ok.inj heq)
  | error fault => cases heq

theorem maintains_failWith (message : String) :
    Maintains P (failWith message) fun _ => True :=
  maintains_throw _ _

/-- A nested builder maintains a property of its own. -/
theorem Maintains.within {I : γ → Prop} {blank : γ} {body : Build γ Unit} {Q : Unit → Prop}
    (hblank : I blank) (hbody : Maintains I body Q) : Maintains P (within blank body) I := by
  intro s hs
  rw [outcome_within]
  refine ⟨hs, fun c heq => ?_⟩
  have hI := (hbody ⟨blank, s.journal⟩ hblank).1
  cases hresult : (body.outcome ⟨blank, s.journal⟩).1 with
  | ok _ =>
    obtain rfl : (body.outcome ⟨blank, s.journal⟩).2 = c := by
      simpa [hresult, Except.map] using heq
    exact hI
  | error e => simp [hresult, Except.map] at heq

/-- A property that a step keeps also holds behind it when its failure is caught. -/
theorem Maintains.perform {action : Build β Unit} {Q : Unit → Prop} (h : Maintains P action Q)
    (place : List Nat) (step : String) (progress : β → Progress) (isCaught : Bool) :
    Maintains P (perform place step progress isCaught action) fun _ => True := by
  intro s hs
  rw [outcome_perform]
  exact ⟨(h s hs).1, fun _ _ => trivial⟩

/-- A scope maintains what each of its steps maintains. -/
theorem maintains_performAll {action : Type} {place : List Nat} {name : action → String}
    {progress : β → Progress} {run : List Nat → action → Build β Unit} {i : Nat}
    {steps : List (Step action)} {Q : Unit → Prop}
    (h : ∀ place, ∀ step ∈ steps, Maintains P (run place step.action) Q) :
    Maintains P (performAll place name progress run i steps) fun _ => True := by
  induction steps generalizing i with
  | nil => exact maintains_pure trivial
  | cons step steps ih =>
    rw [performAll]
    have hstep := h (place ++ [i]) step (List.mem_cons_self ..)
    exact (hstep.perform _ _ _ _).bind fun _ _ =>
      ih fun place other hother => h place other (List.mem_cons_of_mem step hother)

end SceneScript.Build
