import SceneScript.Proofs.Build.Atomic

/-!
Programs without the steps whose failures were caught. A run is followed step by step, in nested
scopes too, and a step that fails and is caught is left out; the steps behind an uncaught failure
are never run and stay. The program that is left comes to the same as the whole one, although both
note different things.
-/
namespace SceneScript

namespace Build

variable {α β γ : Type}

/-- Follows a run past one step. Nothing is left out behind an uncaught failure. -/
def pruneStep {program : Type} (place : List Nat) (step : String) (progress : β → Progress)
    (isCaught : Bool) (action : Build β Unit) (kept caught : program → program) (next : program)
    (pruneNext : Session β → program) (s : Session β) : program :=
  match action s, perform place step progress isCaught action s with
  | .ok _ _, .ok _ t => kept (pruneNext t)
  | .error _ _, .ok _ t => caught (pruneNext t)
  | _, .error _ _ => kept next

/-- Follows the run of a scope. What is left of an action can depend on what happens in it. -/
def pruneAll (place : List Nat) (name : α → String) (progress : β → Progress)
    (run : List Nat → α → Build β Unit) (prune : List Nat → α → Session β → α) :
    Nat → List (Step α) → Session β → List (Step α)
  | _, [], _ => []
  | i, step :: steps, s =>
    pruneStep (place ++ [i]) (name step.action) progress step.isCaught
      (run (place ++ [i]) step.action)
      (fun rest => ⟨prune (place ++ [i]) step.action s, step.isCaught⟩ :: rest) id steps
      (pruneAll place name progress run prune (i + 1) steps) s

end Build

open Build

namespace MonologueProgram

def said (calls : List LineCall) : List LineCall := calls.takeWhile fun call => call.line.isOk

/-- Each line of a chain counts as a step. -/
def pruned (place : List Nat) : Nat → MonologueProgram → Session Monologue → MonologueProgram
  | _, .done, _ => .done
  | i, .say call isCaught next, s =>
    pruneStep (place ++ [i]) "say" (fun _ => .untracked) isCaught
      (do Monologue.say (← require call.line))
      (.say call isCaught) id next (pruned place (i + 1) next) s
  | i, .chain calls isCaught next, s =>
    pruneStep (place ++ [i]) "chain" (fun _ => .untracked) isCaught (sayAll calls)
      (.chain calls isCaught) (.chain (said calls) isCaught) next (pruned place (i + 1) next) s
  | i, .monologue body isCaught next, s =>
    pruneStep (place ++ [i]) "monologue" (fun _ => .untracked) isCaught
      (Monologue.monologue (body.run (place ++ [i]) 0))
      (.monologue (body.pruned (place ++ [i]) 0 ⟨{}, s.journal⟩) isCaught) id next
      (pruned place (i + 1) next) s
  | i, .fail message isCaught next, s =>
    pruneStep (place ++ [i]) "fail" (fun _ => .untracked) isCaught (failWith message)
      (.fail message isCaught) id next (pruned place (i + 1) next) s

end MonologueProgram

namespace DialogueAction

def pruned (place : List Nat) : DialogueAction → Session Dialogue → DialogueAction
  | .monologue body, s => .monologue (body.pruned place 0 ⟨{}, s.journal⟩)
  | action, _ => action

def prunedAll (place : List Nat) (steps : DialogueProgram) (s : Session Dialogue) :
    DialogueProgram :=
  pruneAll place name progress run pruned 0 steps s

end DialogueAction

namespace ChoicesAction

def pruned (place : List Nat) : ChoicesAction → Session Choices → ChoicesAction
  | .option name body, s => .option name (DialogueAction.prunedAll place body ⟨{}, s.journal⟩)
  | action, _ => action

def prunedAll (place : List Nat) (steps : ChoicesProgram) (s : Session Choices) :
    ChoicesProgram :=
  pruneAll place name progress run pruned 0 steps s

end ChoicesAction

namespace PartsAction

def pruned (place : List Nat) : PartsAction → Session Parts → PartsAction
  | .dialogue body, s => .dialogue (DialogueAction.prunedAll place body ⟨{}, s.journal⟩)
  | .branch body, s => .branch (ChoicesAction.prunedAll place body ⟨{}, s.journal⟩)
  | .branchWith waitForAll body, s =>
    .branchWith waitForAll (ChoicesAction.prunedAll place body ⟨{}, s.journal⟩)
  | action, _ => action

def prunedAll (place : List Nat) (steps : PartsProgram) (s : Session Parts) : PartsProgram :=
  pruneAll place name progress run pruned 0 steps s

end PartsAction

namespace SceneAction

def pruned (place : List Nat) : SceneAction → Session Stage → SceneAction
  | .parts body, s => .parts (PartsAction.prunedAll place body ⟨{}, s.journal⟩)
  | action, _ => action

def prunedAll (steps : SceneProgram) (s : Session Stage) : SceneProgram :=
  pruneAll [] name progress run pruned 0 steps s

end SceneAction

/-! Following a run does not change what it comes to -/

namespace Build

variable {α β γ : Type}

/-- Two runs that come to the same go on to the same. -/
theorem outcome_bind_congr {x y : Build β α} {f g : α → Build β γ} {s t : Session β}
    (h : y.outcome t = x.outcome s)
    (hnext : ∀ a s' t', x s = .ok a s' → y t = .ok a t' → s'.built = t'.built →
      (g a).outcome t' = (f a).outcome s') :
    outcome (y >>= g) t = outcome (x >>= f) s := by
  cases hx : x s with
  | ok a s' =>
    rw [outcome_eq_ok_iff.mpr ⟨s', hx, rfl⟩] at h
    obtain ⟨t', hy, hbuilt⟩ := outcome_eq_ok_iff.mp h
    rw [outcome_bind_of_ok hx, outcome_bind_of_ok hy]
    exact hnext a s' t' hx hy hbuilt.symm
  | error e s' =>
    rw [outcome_eq_error_iff.mpr ⟨s', hx, rfl⟩] at h
    obtain ⟨t', hy, hbuilt⟩ := outcome_eq_error_iff.mp h
    rw [outcome_bind_of_error hx, outcome_bind_of_error hy, hbuilt]

/-- An operation that comes to the same whatever the journal is. -/
def Blind (op : Build β α) : Prop :=
  ∀ s t : Session β, s.built = t.built → op.outcome t = op.outcome s

/-- The second operation starts from equal values, though the journals may differ by then. -/
theorem Blind.bind {op : Build β α} {next : α → Build β γ} (h : Blind op)
    (hnext : ∀ a, Blind (next a)) : Blind (op >>= next) := by
  intro s t hst
  apply outcome_bind_congr (h s t hst)
  intro a s' t' _ _ hbuilt
  exact hnext a s' t' hbuilt

theorem blind_pure (a : α) : Blind (pure a : Build β α) := by
  intro s t hst
  rw [outcome_pure, outcome_pure, hst]

theorem blind_throw (e : SceneError) : Blind (throw e : Build β α) := by
  intro s t hst
  rw [outcome_throw, outcome_throw, hst]

theorem blind_note (event : Event) : Blind (note event : Build β Unit) := by
  intro s t hst
  rw [outcome_note, outcome_note, hst]

theorem blind_built : Blind (built : Build β β) := by
  intro s t hst
  rw [outcome_built, outcome_built, hst]

theorem blind_update (f : β → β) : Blind (update f) := by
  intro s t hst
  rw [outcome_update, outcome_update, hst]

theorem blind_require (checked : Except InvalidInput α) : Blind (require checked : Build β α) := by
  intro s t hst
  rw [outcome_require, outcome_require, hst]

theorem state_eq_of_require {checked : Except InvalidInput α} {s t : Session β} {a : α}
    (h : require checked s = .ok a t) : s = t := by
  cases checked with
  | ok b => exact (EStateM.Result.ok.inj h).2
  | error fault => cases h

/-- Nested scopes that come to the same do so for the scope around them. -/
theorem outcome_within_congr {body body' : Build γ Unit} {blank : γ} {s t : Session β}
    (hst : s.built = t.built)
    (h : body'.outcome ⟨blank, t.journal⟩ = body.outcome ⟨blank, s.journal⟩) :
    (within blank body').outcome t = (within blank body).outcome s := by
  rw [outcome_within, outcome_within, h, hst]

theorem outcome_perform_congr {place place' : List Nat} {step step' : String}
    {progress : β → Progress} {isCaught : Bool} {action action' : Build β Unit} {s t : Session β}
    (h : action'.outcome t = action.outcome s) :
    (perform place' step' progress isCaught action').outcome t =
      (perform place step progress isCaught action).outcome s := by
  rw [outcome_perform, outcome_perform, h]

section

variable {program : Type} {place : List Nat} {step : String} {progress : β → Progress}
  {isCaught : Bool} {action : Build β Unit} {kept caught : program → program} {next : program}
  {pruneNext : Session β → program} {s t u : Session β}

/-- A step that succeeds is kept. -/
theorem pruneStep_of_ok (hperform : perform place step progress isCaught action s = .ok () u)
    (haction : action s = .ok () t) :
    pruneStep place step progress isCaught action kept caught next pruneNext s =
      kept (pruneNext u) := by
  rw [pruneStep, hperform, haction]

/-- A step that fails and is caught is left out. -/
theorem pruneStep_of_caught {e : SceneError}
    (hperform : perform place step progress isCaught action s = .ok () u)
    (haction : action s = .error e t) :
    pruneStep place step progress isCaught action kept caught next pruneNext s =
      caught (pruneNext u) := by
  rw [pruneStep, hperform, haction]

end

/-- One step of a simulation. The rest of the program may start at any number, since leaving out
steps moves those behind them. -/
theorem outcome_pruneStep {program : Type} (eval : Nat → program → Build β Unit)
    (place' : Nat → List Nat) (step' : String) (action' : Nat → Build β Unit)
    {place : List Nat} {step : String} {progress : β → Progress} {isCaught : Bool}
    {action rest : Build β Unit} {kept caught : program → program} {next : program}
    {pruneNext : Session β → program} {s t : Session β}
    (heval : ∀ i p, eval i (kept p) =
      (do perform (place' i) step' progress isCaught (action' i); eval (i + 1) p))
    (haction : ∀ i, (action' i).outcome t = action.outcome s)
    (hnext : ∀ i s' t', s'.built = t'.built →
      (eval i (pruneNext s')).outcome t' = rest.outcome s')
    (hcaught : ∀ i e s', isCaught = true → action.outcome s = (.error e, s'.built) →
      (eval i (caught (pruneNext s'))).outcome t = rest.outcome s') (i : Nat) :
    (eval i
        (pruneStep place step progress isCaught action kept caught next pruneNext s)).outcome t =
      outcome (do perform place step progress isCaught action; rest) s := by
  have hstep (i : Nat) :
      (perform (place' i) step' progress isCaught (action' i)).outcome t =
        (perform place step progress isCaught action).outcome s :=
    outcome_perform_congr (haction i)
  cases hperform : perform place step progress isCaught action s with
  | error e u =>
    have hpruned : pruneStep place step progress isCaught action kept caught next pruneNext s =
        kept next := by
      unfold pruneStep
      rw [hperform]
      cases action s <;> rfl
    rw [hpruned, heval]
    apply outcome_bind_congr (hstep i)
    intro _ s' _ hok
    rw [hperform] at hok
    cases hok
  | ok a u =>
    cases hresult : action s with
    | ok b v =>
      rw [pruneStep_of_ok hperform hresult, heval]
      apply outcome_bind_congr (hstep i)
      intro _ s' t' hok _ hbuilt
      rw [hperform] at hok
      obtain ⟨rfl, rfl⟩ := EStateM.Result.ok.inj hok
      exact hnext (i + 1) u t' hbuilt
    | error e v =>
      have haction' : action.outcome s = (.error e, v.built) :=
        outcome_eq_error_iff.mpr ⟨v, hresult, rfl⟩
      have houtcome := outcome_perform place step progress isCaught action s
      rw [outcome_eq_ok_iff.mpr ⟨u, hperform, rfl⟩, haction'] at houtcome
      obtain ⟨hok, hbuilt⟩ := Prod.mk.inj houtcome
      have hcaughtStep : isCaught = true := by
        cases isCaught with
        | true => rfl
        | false => simp at hok
      rw [pruneStep_of_caught hperform hresult, outcome_bind_of_ok hperform]
      apply hcaught i e u hcaughtStep
      rw [haction', hbuilt]

/-- What is left of an atomic step that failed and was caught is nothing. -/
theorem outcome_caught_id {program : Type} {eval : Nat → program → Build β Unit}
    {isCaught : Bool} {action rest : Build β Unit} {pruneNext : Session β → program}
    {s t : Session β} (hst : s.built = t.built) (hatomic : isCaught = true → Atomic action)
    (hnext : ∀ i s' t', s'.built = t'.built →
      (eval i (pruneNext s')).outcome t' = rest.outcome s') (i : Nat) (e : SceneError)
    (s' : Session β) (hisCaught : isCaught = true)
    (haction : action.outcome s = (.error e, s'.built)) :
    (eval i (id (pruneNext s'))).outcome t = rest.outcome s' := by
  have hbuilt := hatomic hisCaught s e (congrArg Prod.fst haction)
  rw [haction] at hbuilt
  exact hnext i s' t (hbuilt.trans hst)

/-- A scope whose actions come to the same when they are pruned comes to the same itself. -/
theorem outcome_pruneAll {place place' : List Nat} {name : α → String} {progress : β → Progress}
    {run : List Nat → α → Build β Unit} {prune : List Nat → α → Session β → α}
    {steps : List (Step α)}
    (hprune : ∀ place place' action s t, s.built = t.built →
      (run place' (prune place action s)).outcome t = (run place action).outcome s)
    (hatomic : ∀ place, ∀ step ∈ steps, step.isCaught = true → Atomic (run place step.action))
    {i : Nat} (j : Nat) {s t : Session β} (hst : s.built = t.built) :
    (performAll place' name progress run j
        (pruneAll place name progress run prune i steps s)).outcome t =
      (performAll place name progress run i steps).outcome s := by
  induction steps generalizing i j s t with
  | nil =>
    rw [pruneAll, performAll, performAll, outcome_pure, outcome_pure, hst]
  | cons step steps ih =>
    have hstep : step.isCaught = true → Atomic (run (place ++ [i]) step.action) :=
      hatomic _ step (List.mem_cons_self ..)
    have hrest (place : List Nat) (other : Step α) (hother : other ∈ steps) :=
      hatomic place other (List.mem_cons_of_mem step hother)
    have hnext (j : Nat) (s' t' : Session β) (hbuilt : s'.built = t'.built) :=
      ih hrest (i := i + 1) j hbuilt
    have haction (j : Nat) := hprune (place ++ [i]) (place' ++ [j]) step.action s t hst
    rw [pruneAll, performAll]
    exact outcome_pruneStep (performAll place' name progress run) (fun j => place' ++ [j])
      (name (prune (place ++ [i]) step.action s))
      (fun j => run (place' ++ [j]) (prune (place ++ [i]) step.action s)) (fun _ _ => rfl)
      haction hnext (outcome_caught_id hst hstep hnext) j

end Build

namespace MonologueProgram

/-- The lines that a chain has said before it failed can be said on their own. -/
theorem outcome_sayAll_said (calls : List LineCall) {s t : Session Monologue}
    (hst : s.built = t.built) :
    (sayAll (said calls)).outcome t = (.ok (), ((sayAll calls).outcome s).2) := by
  induction calls generalizing s t with
  | nil => exact congrArg (Prod.mk (Except.ok ())) hst.symm
  | cons call calls ih =>
    cases hline : call.line with
    | error fault =>
      have hsaid : said (call :: calls) = [] := by simp [said, hline, Except.isOk, Except.toBool]
      have hfails : (sayAll (call :: calls)).outcome s =
          (.error (.invalidInput fault), s.built) := by
        rw [sayAll, hline]
        rfl
      rw [hsaid, hfails]
      exact congrArg (Prod.mk (Except.ok ())) hst.symm
    | ok line =>
      have hsaid : said (call :: calls) = call :: said calls := by
        simp [said, hline, Except.isOk, Except.toBool]
      have hgoes (s : Session Monologue) (calls : List LineCall) :
          (sayAll (call :: calls)).outcome s =
            (sayAll calls).outcome { s with built := ⟨s.built.lines ++ [line]⟩ } := by
        rw [sayAll, hline]
        rfl
      rw [hsaid, hgoes, hgoes]
      exact ih (by simp [hst])

theorem blind_sayCall (call : LineCall) : Blind (do Monologue.say (← require call.line)) := by
  apply (blind_require _).bind
  intro line
  exact blind_update _

theorem blind_sayAll (calls : List LineCall) : Blind (sayAll calls) := by
  induction calls with
  | nil => exact blind_pure ()
  | cons call calls ih =>
    apply (blind_require _).bind
    intro line
    apply (blind_update _).bind
    intro _
    exact ih

/-- A monologue without the steps that failed and were caught comes to the same, at whatever place
it stands. -/
theorem outcome_pruned (program : MonologueProgram) {place place' : List Nat} {i : Nat} (j : Nat)
    {s t : Session Monologue} (hst : s.built = t.built) :
    ((program.pruned place i s).run place' j).outcome t = (program.run place i).outcome s := by
  induction program generalizing place place' i j s t with
  | done => exact congrArg (Prod.mk (Except.ok ())) hst.symm
  | say call isCaught next ih =>
    have hnext := fun j s' t' => @ih place place' (i + 1) j s' t'
    have hatomic : Atomic (do Monologue.say (← require call.line)) :=
      (quiet_require _).bind_atomic Monologue.atomic_say
    exact outcome_pruneStep (run place') (fun j => place' ++ [j]) "say"
      (fun _ => do Monologue.say (← require call.line)) (fun _ _ => rfl)
      (fun _ => blind_sayCall call s t hst) hnext
      (outcome_caught_id hst (fun _ => hatomic) hnext) j
  | chain calls isCaught next ih =>
    have hnext := fun j s' t' => @ih place place' (i + 1) j s' t'
    refine outcome_pruneStep (run place') (fun j => place' ++ [j]) "chain" (fun _ => sayAll calls)
      (fun _ _ => rfl) (fun _ => blind_sayAll calls s t hst) hnext ?_ j
    intro j e s' hisCaught haction
    have hsaid := outcome_sayAll_said calls hst
    rw [haction] at hsaid
    have hstep := outcome_perform (place' ++ [j]) "chain" (fun _ => Progress.untracked) isCaught
      (sayAll (said calls)) t
    rw [hsaid, ite_self] at hstep
    obtain ⟨t', hperform, hbuilt⟩ := outcome_eq_ok_iff.mp hstep
    rw [run, outcome_bind_of_ok hperform]
    exact hnext (j + 1) s' t' hbuilt.symm
  | monologue body isCaught next ihbody ih =>
    have hnext := fun j s' t' => @ih place place' (i + 1) j s' t'
    refine outcome_pruneStep (run place') (fun j => place' ++ [j]) "monologue"
      (fun j => Monologue.monologue
        ((body.pruned (place ++ [i]) 0 ⟨{}, s.journal⟩).run (place' ++ [j]) 0))
      (fun _ _ => rfl) (fun j => ?_) hnext
      (outcome_caught_id hst (fun _ => Monologue.atomic_monologue _) hnext) j
    apply outcome_bind_congr (outcome_within_congr hst (ihbody 0 rfl))
    intro inner s' t' _ _ hbuilt
    exact blind_update _ s' t' hbuilt
  | fail message isCaught next ih =>
    have hnext := fun j s' t' => @ih place place' (i + 1) j s' t'
    exact outcome_pruneStep (run place') (fun j => place' ++ [j]) "fail"
      (fun _ => failWith message) (fun _ _ => rfl) (fun _ => blind_throw _ s t hst) hnext
      (outcome_caught_id hst (fun _ => (quiet_failWith message).atomic) hnext) j

end MonologueProgram

theorem Dialogue.blind_narrate (text : String) : Blind (Dialogue.narrate text) := by
  apply (blind_require _).bind
  intro line
  exact blind_update _

namespace DialogueAction

theorem outcome_pruned (place place' : List Nat) (action : DialogueAction) (s t : Session Dialogue)
    (hst : s.built = t.built) :
    ((action.pruned place s).run place').outcome t = (action.run place).outcome s := by
  cases action with
  | line call => exact ((blind_require _).bind fun _ => blind_update _) s t hst
  | narrate text => exact ((blind_require _).bind Dialogue.blind_narrate) s t hst
  | monologue body =>
    apply outcome_bind_congr (outcome_within_congr hst (body.outcome_pruned 0 rfl))
    intro inner s' t' _ _ hbuilt
    have hclose : Blind (do
        log (.flattening inner.lines.length)
        update fun d : Dialogue => ⟨d.lines ++ inner.lines⟩) :=
      (blind_note _).bind fun _ => blind_update _
    exact hclose s' t' hbuilt
  | fail message => exact blind_throw _ s t hst

/-- A dialogue without the steps that failed and were caught comes to the same, inside its
monologues too. -/
theorem outcome_prunedAll (place place' : List Nat) (steps : DialogueProgram)
    {s t : Session Dialogue} (hst : s.built = t.built) :
    (runAll place' (prunedAll place steps s)).outcome t = (runAll place steps).outcome s :=
  outcome_pruneAll outcome_pruned (fun place step _ _ => atomic_run place step.action) 0 hst

theorem outcome_within_prunedAll {β : Type} (place place' : List Nat) (steps : DialogueProgram)
    {s t : Session β} (hst : s.built = t.built) :
    (within {} (runAll place' (prunedAll place steps ⟨{}, s.journal⟩))).outcome t =
      (within {} (runAll place steps)).outcome s := by
  apply outcome_within_congr hst
  exact outcome_prunedAll place place' steps rfl

end DialogueAction

namespace ChoicesAction

theorem outcome_pruned (place place' : List Nat) (action : ChoicesAction) (s t : Session Choices)
    (hst : s.built = t.built) :
    ((action.pruned place s).run place').outcome t = (action.run place).outcome s := by
  cases action with
  | option name body =>
    -- The name is checked first, which leaves the journal as it was for the dialogue.
    apply outcome_bind_congr (blind_require _ s t hst)
    intro _ s' t' hs ht hbuilt
    obtain rfl := state_eq_of_require hs
    obtain rfl := state_eq_of_require ht
    apply outcome_bind_congr (DialogueAction.outcome_within_prunedAll place place' body hst)
    intro dialogue s' t' _ _ hbuilt
    have hclose : Blind (do
        log (.choiceClosed name dialogue.lines.length)
        update fun b : Choices => ⟨b.choices ++ [⟨name, dialogue.lines⟩]⟩) :=
      (blind_note _).bind fun _ => blind_update _
    exact hclose s' t' hbuilt
  | fail message => exact blind_throw _ s t hst

/-- A program of choices comes to the same, whatever is left out of it and of its dialogues. -/
theorem outcome_prunedAll (place place' : List Nat) (steps : ChoicesProgram)
    {s t : Session Choices} (hst : s.built = t.built) :
    (runAll place' (prunedAll place steps s)).outcome t = (runAll place steps).outcome s :=
  outcome_pruneAll outcome_pruned (fun place step _ _ => atomic_run place step.action) 0 hst

theorem outcome_within_prunedAll {β : Type} (place place' : List Nat) (steps : ChoicesProgram)
    {s t : Session β} (hst : s.built = t.built) :
    (within {} (runAll place' (prunedAll place steps ⟨{}, s.journal⟩))).outcome t =
      (within {} (runAll place steps)).outcome s := by
  apply outcome_within_congr hst
  exact outcome_prunedAll place place' steps rfl

end ChoicesAction

theorem Parts.blind_append (part : Part) : Blind (Parts.append part) := by
  apply blind_built.bind
  intro parts
  apply (blind_note _).bind
  intro _
  exact blind_update _

namespace PartsAction

theorem outcome_pruned (place place' : List Nat) (action : PartsAction) (s t : Session Parts)
    (hst : s.built = t.built) :
    ((action.pruned place s).run place').outcome t = (action.run place).outcome s := by
  cases action with
  | dialogue body =>
    apply outcome_bind_congr (DialogueAction.outcome_within_prunedAll place place' body hst)
    intro inner s' t' _ _ hbuilt
    exact Parts.blind_append _ s' t' hbuilt
  | branch body =>
    apply outcome_bind_congr (ChoicesAction.outcome_within_prunedAll place place' body hst)
    intro inner s' t' _ _ hbuilt
    exact Parts.blind_append _ s' t' hbuilt
  | branchWith waitForAll body =>
    apply outcome_bind_congr (ChoicesAction.outcome_within_prunedAll place place' body hst)
    intro inner s' t' _ _ hbuilt
    exact Parts.blind_append _ s' t' hbuilt
  | background path =>
    exact ((blind_require _).bind fun _ => Parts.blind_append _) s t hst
  | sprite path => exact ((blind_require _).bind fun _ => Parts.blind_append _) s t hst
  | fail message => exact blind_throw _ s t hst

/-- A program of parts comes to the same, whatever is left out at any depth. -/
theorem outcome_prunedAll (place place' : List Nat) (steps : PartsProgram) {s t : Session Parts}
    (hst : s.built = t.built) :
    (runAll place' (prunedAll place steps s)).outcome t = (runAll place steps).outcome s :=
  outcome_pruneAll outcome_pruned (fun place step _ _ => atomic_run place step.action) 0 hst

end PartsAction

namespace Stage

theorem blind_updateScene (f : Scene → Scene) : Blind (Stage.updateScene f) := blind_update _

theorem blind_parse (source : String) : Blind (Stage.parse source) := by
  unfold Stage.parse
  split
  · exact blind_updateScene _
  · exact blind_throw _

/-- How writing ends does not depend on what was noted before. -/
theorem blind_writeWith (writer : Writer) (config : WriteConfig) :
    Blind (Stage.writeWith writer config) := by
  apply blind_built.bind
  intro stage
  split
  · exact blind_note _
  · apply (blind_update _).bind
    intro _
    split
    · exact blind_note _
    · exact blind_throw _

end Stage

namespace SceneAction

/-- A step of a scene comes to the same when its nested programs are pruned. -/
theorem outcome_pruned (place place' : List Nat) (action : SceneAction) (s t : Session Stage)
    (hst : s.built = t.built) :
    ((action.pruned place s).run place').outcome t = (action.run place).outcome s := by
  cases action with
  | version number => exact Stage.blind_updateScene (·.withVersion number) s t hst
  | output path => exact Stage.blind_updateScene (·.withOutput path) s t hst
  | parts body =>
    have hbody := PartsAction.outcome_prunedAll place place' body (s := ⟨{}, s.journal⟩)
      (t := ⟨{}, t.journal⟩) rfl
    apply outcome_bind_congr (outcome_within_congr hst hbody)
    intro inner s' t' _ _ hbuilt
    refine (blind_built.bind fun stage => ?_) s' t' hbuilt
    dsimp only
    split
    · exact Stage.blind_updateScene _
    · apply (blind_note _).bind
      intro _
      exact Stage.blind_updateScene _
  | snapshot => exact (blind_built.bind fun _ => blind_note _) s t hst
  | write => exact Stage.blind_writeWith Writer.files {} s t hst
  | writeWith source writer =>
    change ((SceneAction.writeWith source writer).run place').outcome t = _
    rw [run, run]
    cases source.config with
    | ok config => exact Stage.blind_writeWith writer config s t hst
    | error e => exact blind_throw e s t hst
  | parse source => exact Stage.blind_parse source s t hst
  | fail message => exact blind_throw _ s t hst

/-- Nothing is left of steps that failed and were caught: the program without them comes to the
same. Only a writer must not have been at work in such a step, since the world is not undone. -/
theorem outcome_prunedAll {steps : SceneProgram}
    (hwrites : ∀ step ∈ steps, step.isCaught = true → ¬ step.action.Writes) (s : Session Stage) :
    (runAll (prunedAll steps s)).outcome s = (runAll steps).outcome s :=
  outcome_pruneAll outcome_pruned
    (fun place step hstep hcaught => atomic_run place (hwrites step hstep hcaught)) 0 rfl

end SceneAction

/-- A failed operation leaves no trace in its builder, whatever its body is; and so nothing is left
in a scene of the steps of its program that failed and were caught, at any depth. Only a writer must
not have been at work in such a step, since what it did to the world is not undone. -/
theorem failures_leave_no_trace :
    ((∀ text, Atomic (Dialogue.narrate text)) ∧ (∀ body, Atomic (Dialogue.monologue body)) ∧
      (∀ body, Atomic (Monologue.monologue body)) ∧
      (∀ name body, Atomic (Choices.option name body)) ∧
      (∀ body, Atomic (Parts.dialogue body)) ∧ (∀ body, Atomic (Parts.branch body)) ∧
      (∀ waitForAll body, Atomic (Parts.branchWith waitForAll body)) ∧
      (∀ path, Atomic (Parts.background path)) ∧ (∀ path, Atomic (Parts.sprite path)) ∧
      ∀ body, Atomic (Stage.parts body)) ∧
    ∀ steps : SceneProgram,
      (∀ step ∈ steps, step.isCaught = true → ¬ step.action.Writes) → ∀ s : Session Stage,
        (SceneAction.runAll (SceneAction.prunedAll steps s)).outcome s =
          (SceneAction.runAll steps).outcome s :=
  ⟨⟨Dialogue.atomic_narrate, Dialogue.atomic_monologue, Monologue.atomic_monologue,
    Choices.atomic_option, Parts.atomic_dialogue, Parts.atomic_branch, Parts.atomic_branchWith,
    Parts.atomic_background, Parts.atomic_sprite, Stage.atomic_parts⟩,
    fun _ hwrites s => SceneAction.outcome_prunedAll hwrites s⟩

/-- Failures are caught behind work that was done already, in three scopes. -/
def caughtSteps : SceneProgram :=
  [⟨.parts [⟨.dialogue [⟨.narrate [.literal "1"], false⟩,
      ⟨.monologue (.say { text := [.literal "2"] } false (.fail "no" false .done)), true⟩,
      ⟨.narrate [.literal "3"], false⟩], false⟩, ⟨.background "", true⟩], false⟩,
    ⟨.parts [⟨.sprite "a.png", false⟩, ⟨.fail "no", false⟩], true⟩]

def uncaughtSteps : SceneProgram :=
  [⟨.parts [⟨.dialogue [⟨.narrate [.literal "1"], false⟩, ⟨.narrate [.literal "3"], false⟩],
    false⟩], false⟩]

theorem outcome_caughtSteps :
    (SceneAction.runAll uncaughtSteps).outcome ⟨{}, []⟩ =
      (SceneAction.runAll caughtSteps).outcome ⟨{}, []⟩ := by
  have hwrites : ∀ step ∈ caughtSteps, step.isCaught = true → ¬ step.action.Writes := by
    simp [caughtSteps, SceneAction.Writes]
  -- The last step fails from whatever session it starts, so the first need not be run before it.
  have hlast : pruneAll [] SceneAction.name SceneAction.progress SceneAction.run
      SceneAction.pruned 1 [⟨.parts [⟨.sprite "a.png", false⟩, ⟨.fail "no", false⟩], true⟩] =
        fun _ => [] := rfl
  have hpruned : SceneAction.prunedAll caughtSteps ⟨{}, []⟩ = uncaughtSteps := by
    rw [SceneAction.prunedAll, caughtSteps, pruneAll, hlast]
    rfl
  rw [← hpruned]
  exact failures_leave_no_trace.2 caughtSteps hwrites ⟨{}, []⟩

end SceneScript
