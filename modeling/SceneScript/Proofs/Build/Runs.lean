import SceneScript.Proofs.Build.Journal

/-!
What a run comes to together with what it adds to the journal. An account of an operation relates
the builder before, the result, the builder behind and the events in between; accounts of the parts
of an operation make up one of the whole, and accounts of the steps of a scope one of the scope.
-/
namespace SceneScript.Build

variable {α β γ : Type}

/-- This holds of every run of the operation, whether it succeeds or fails. -/
def Runs (op : Build β α) (P : β → Except SceneError α → β → List Event → Prop) : Prop :=
  ∀ s : Session β, ∃ added, op.journal s = s.journal ++ added ∧
    P s.built (op.outcome s).1 (op.outcome s).2 added

section

variable {op : Build β α} {P Q : β → Except SceneError α → β → List Event → Prop}
  {s t : Session β} {a : α} {e : SceneError}

theorem Runs.of_ok (h : Runs op P) (hop : op s = .ok a t) :
    ∃ added, t.journal = s.journal ++ added ∧ P s.built (.ok a) t.built added := by
  obtain ⟨added, hadded, hP⟩ := h s
  rw [journal_of_ok hop] at hadded
  rw [outcome_eq_ok_iff.mpr ⟨t, hop, rfl⟩] at hP
  exact ⟨added, hadded, hP⟩

theorem Runs.of_error (h : Runs op P) (hop : op s = .error e t) :
    ∃ added, t.journal = s.journal ++ added ∧ P s.built (.error e) t.built added := by
  obtain ⟨added, hadded, hP⟩ := h s
  rw [journal_of_error hop] at hadded
  rw [outcome_eq_error_iff.mpr ⟨t, hop, rfl⟩] at hP
  exact ⟨added, hadded, hP⟩

/-- Less may be said about all runs. -/
theorem Runs.mono (h : Runs op P)
    (hPQ : ∀ b result c added, P b result c added → Q b result c added) : Runs op Q := by
  intro s
  obtain ⟨added, hadded, hP⟩ := h s
  exact ⟨added, hadded, hPQ _ _ _ _ hP⟩

/-- What is added to the journal is the same in two accounts of a run. -/
theorem Runs.and (h : Runs op P) (h' : Runs op Q) :
    Runs op fun b result c added => P b result c added ∧ Q b result c added := by
  intro s
  obtain ⟨added, hadded, hP⟩ := h s
  obtain ⟨added', hadded', hQ⟩ := h' s
  obtain rfl : added = added' := List.append_cancel_left (hadded.symm.trans hadded')
  exact ⟨added, hadded, hP, hQ⟩

theorem Logs.runs {R : Record → Prop} (h : Logs R op) :
    Runs op fun _ _ _ added => ∀ record, .record record ∈ added → R record := h

/-- What is known of two runs is put together, and so is what they add to the journal. -/
theorem Runs.bind {next : α → Build β γ} {T : α → β → Except SceneError γ → β → List Event → Prop}
    {R : β → Except SceneError γ → β → List Event → Prop} (h : Runs op P)
    (hnext : ∀ a, Runs (next a) (T a))
    (hok : ∀ b a c added result d more,
      P b (.ok a) c added → T a c result d more → R b result d (added ++ more))
    (herror : ∀ b e c added, P b (.error e) c added → R b (.error e) c added) :
    Runs (op >>= next) R := by
  intro s
  cases hop : op s with
  | ok a t =>
    obtain ⟨added, hadded, hP⟩ := h.of_ok hop
    obtain ⟨more, hmore, hT⟩ := hnext a t
    rw [journal_bind_of_ok hop, outcome_bind_of_ok hop]
    refine ⟨added ++ more, ?_, hok _ _ _ _ _ _ _ hP hT⟩
    rw [hmore, hadded, List.append_assoc]
  | error e t =>
    obtain ⟨added, hadded, hP⟩ := h.of_error hop
    rw [journal_bind_of_error hop, outcome_bind_of_error hop]
    exact ⟨added, hadded, herror _ _ _ _ hP⟩

end

theorem runs_require (checked : Except InvalidInput α) :
    Runs (require checked : Build β α) fun b _ c added => c = b ∧ added = [] := by
  intro s
  cases checked with
  | ok a => exact ⟨[], (List.append_nil _).symm, rfl, rfl⟩
  | error fault => exact ⟨[], (List.append_nil _).symm, rfl, rfl⟩

theorem runs_failWith (message : String) :
    Runs (failWith message : Build β Unit) fun b result c added =>
      result = .error (.invalidInput (.custom message)) ∧ c = b ∧ added = [] :=
  fun _ => ⟨[], (List.append_nil _).symm, rfl, rfl, rfl⟩

/-- The builder around a nested one goes on as it was, with what has been built in there or with
the error. -/
theorem Runs.within_bind {body : Build γ Unit} {next : γ → Build β Unit} {blank : γ}
    {P : γ → Except SceneError Unit → γ → List Event → Prop}
    {T : γ → β → Except SceneError Unit → β → List Event → Prop}
    {R : β → Except SceneError Unit → β → List Event → Prop} (h : Runs body P)
    (hnext : ∀ inner, Runs (next inner) (T inner))
    (hok : ∀ b inner added result c more,
      P blank (.ok ()) inner added → T inner b result c more → R b result c (added ++ more))
    (herror : ∀ b e inner added, P blank (.error e) inner added → R b (.error e) b added) :
    Runs (do let inner ← within blank body; next inner) R := by
  intro s
  cases hbody : body ⟨blank, s.journal⟩ with
  | ok _ t =>
    have hwithin := within_of_ok hbody
    obtain ⟨added, hadded, hP⟩ := h.of_ok hbody
    obtain ⟨more, hmore, hT⟩ := hnext t.built { s with journal := t.journal }
    rw [journal_bind_of_ok hwithin, outcome_bind_of_ok hwithin]
    refine ⟨added ++ more, ?_, hok _ _ _ _ _ _ hP hT⟩
    rw [hmore, hadded, List.append_assoc]
  | error e t =>
    have hwithin := within_of_error hbody
    obtain ⟨added, hadded, hP⟩ := h.of_error hbody
    rw [journal_bind_of_error hwithin, outcome_bind_of_error hwithin]
    exact ⟨added, hadded, herror _ _ _ _ hP⟩

/-- Behind what its action has added, the end of a step is noted. -/
theorem Runs.perform {action : Build β Unit}
    {P Q : β → Except SceneError Unit → β → List Event → Prop} (h : Runs action P)
    {place : List Nat} {step : String} {progress : β → Progress} {isCaught : Bool}
    (hfinish : ∀ b result c added, P b result c added →
      Q b (if isCaught then .ok () else result) c
        (added ++ [.finished place step (progress c) (failure result)])) :
    Runs (Build.perform place step progress isCaught action) Q := by
  intro s
  obtain ⟨added, hadded, hP⟩ := h s
  refine ⟨added ++ [_], by rw [journal_perform, hadded, List.append_assoc], ?_⟩
  rw [outcome_perform]
  exact hfinish _ _ _ _ hP

/-- What holds of no step at all and is carried over one more step holds of all runs of a scope. -/
theorem runs_performAll {place : List Nat} {name : α → String} {progress : β → Progress}
    {run : List Nat → α → Build β Unit} {P : β → Except SceneError Unit → β → List Event → Prop}
    {steps : List (Step α)} (hdone : ∀ b, P b (.ok ()) b [])
    (hnext : ∀ b c added result d more,
      P b (.ok ()) c added → P c result d more → P b result d (added ++ more))
    (hstep : ∀ i, ∀ step ∈ steps, Runs (Build.perform (place ++ [i]) (name step.action) progress
      step.isCaught (run (place ++ [i]) step.action)) P) {i : Nat} :
    Runs (performAll place name progress run i steps) P := by
  induction steps generalizing i with
  | nil => exact fun s => ⟨[], (List.append_nil _).symm, hdone s.built⟩
  | cons step steps ih =>
    have hrest := ih (i := i + 1) fun i other hother =>
      hstep i other (List.mem_cons_of_mem step hother)
    exact (hstep i step (List.mem_cons_self ..)).bind (fun _ => hrest)
      (fun b _ c added result d more => hnext b c added result d more) fun _ _ _ _ h => h

end SceneScript.Build
