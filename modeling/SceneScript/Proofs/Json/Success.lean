import SceneScript.Json.Reader
import SceneScript.Proofs.Json.Grammar

/-!
What a reader of text gives when it succeeds: the value and the text left over. Faults and their
places are forgotten, so that reading becomes a composition of partial functions; the basic readers
and the ways to combine them are described in these terms. Where it matters what a reader fails
with, only the places are forgotten.
-/
namespace SceneScript.Json

namespace Scan

variable {α β : Type}

def success (scan : Scan α) (cs : List Char) : Option (α × List Char) :=
  match scan cs with
  | .ok a rest => some (a, rest)
  | .error _ _ => none

theorem success_of_eq_ok {scan : Scan α} {cs rest : List Char} {a : α}
    (h : scan cs = .ok a rest) : scan.success cs = some (a, rest) := by
  simp only [success, h]

theorem bind_of_success {scan : Scan α} {next : α → Scan β} {cs rest : List Char} {a : α}
    (h : scan.success cs = some (a, rest)) : (scan >>= next) cs = next a rest := by
  change EStateM.bind scan next cs = next a rest
  unfold success at h
  unfold EStateM.bind
  cases hscan : scan cs with
  | ok b behind =>
    obtain ⟨rfl, rfl⟩ : b = a ∧ behind = rest := by simpa [hscan] using h
    rfl
  | error f behind => simp [hscan] at h

@[simp] theorem success_pure (a : α) (cs : List Char) :
    success (pure a : Scan α) cs = some (a, cs) := rfl

@[simp] theorem success_bind (scan : Scan α) (next : α → Scan β) (cs : List Char) :
    success (scan >>= next) cs = (scan.success cs).bind fun p => (next p.1).success p.2 := by
  unfold success
  change (match EStateM.bind scan next cs with
    | .ok a rest => some (a, rest)
    | .error _ _ => none) = _
  unfold EStateM.bind
  cases scan cs <;> rfl

@[simp] theorem success_map (f : α → β) (scan : Scan α) (cs : List Char) :
    success (f <$> scan) cs = (scan.success cs).map fun p => (f p.1, p.2) := by
  unfold success
  change (match EStateM.map f scan cs with
    | .ok a rest => some (a, rest)
    | .error _ _ => none) = _
  unfold EStateM.map
  cases scan cs <;> rfl

@[simp] theorem success_reject (fault : Unsuitable) (cs : List Char) :
    success (reject fault : Scan α) cs = none := rfl

@[simp] theorem success_accept (checked : Except Unsuitable α) (cs : List Char) :
    (accept checked).success cs = checked.toOption.map fun a => (a, cs) := by
  cases checked <;> rfl

@[simp] theorem success_placed (scan : Scan α) (cs : List Char) :
    (placed scan).success cs = scan.success cs := by
  unfold success placed
  cases scan cs <;> rfl

/-- The closing bracket is wanted, and adds nothing. -/
@[simp] theorem success_closedBy (inside : Scan α) (close : Scan Unit) (cs : List Char) :
    (closedBy inside close).success cs =
      (inside.success cs).bind fun p => (close.success p.2).map fun q => (p.1, q.2) := by
  unfold success closedBy
  cases inside cs with
  | ok a rest => cases hclose : close rest <;> simp only [hclose, Option.bind_some] <;> rfl
  | error f rest => cases hclose : close rest <;> simp only [hclose] <;> rfl

@[simp] theorem success_bracketed (inside : Scan α) (close : Scan Unit) (c : Char)
    (cs : List Char) :
    (bracketed inside close).success (c :: cs) = (closedBy inside close).success cs := rfl

@[simp] theorem success_nested_succ (inside : Nat → Scan α) (close : Scan Unit) (depth : Nat) :
    success (nested inside close (depth + 1)) = success (bracketed (inside depth) close) := rfl

def verdict (scan : Scan α) (cs : List Char) : Except Cause (α × List Char) :=
  match scan cs with
  | .ok a rest => .ok (a, rest)
  | .error f _ => .error f.cause

/-- A verdict forgets where a fault was, and success forgets what it was. -/
theorem toOption_verdict (scan : Scan α) (cs : List Char) :
    (scan.verdict cs).toOption = scan.success cs := by
  unfold verdict success
  cases scan cs <;> rfl

theorem verdict_of_success {scan : Scan α} {cs : List Char} {p : α × List Char}
    (h : scan.success cs = some p) : scan.verdict cs = .ok p := by
  unfold success at h
  unfold verdict
  cases hscan : scan cs with
  | ok a rest => simpa [hscan] using h
  | error f rest => simp [hscan] at h

/-- The verdict on two readers is that on the first, unless this one succeeds. -/
theorem verdict_bind (scan : Scan α) (next : α → Scan β) (cs : List Char) :
    verdict (scan >>= next) cs = scan.verdict cs >>= fun p => (next p.1).verdict p.2 := by
  unfold verdict
  change (match EStateM.bind scan next cs with
    | .ok b rest => Except.ok (b, rest)
    | .error f _ => Except.error f.cause) = _
  unfold EStateM.bind
  cases scan cs <;> rfl

theorem verdict_accept (checked : Except Unsuitable α) (cs : List Char) :
    (accept checked).verdict cs = (checked.mapError .unsuitable).map fun a => (a, cs) := by
  cases checked <;> rfl

theorem verdict_placed (scan : Scan α) (cs : List Char) :
    (placed scan).verdict cs = scan.verdict cs := by
  unfold verdict placed
  cases scan cs <;> rfl

/-- The fault inside brackets counts, whatever stands where they end. -/
theorem verdict_closedBy (inside : Scan α) (close : Scan Unit) (cs : List Char) :
    (closedBy inside close).verdict cs =
      inside.verdict cs >>= fun p => (close.verdict p.2).map fun q => (p.1, q.2) := by
  unfold verdict closedBy
  cases inside cs with
  | ok a rest => cases hclose : close rest <;> simp only [hclose, Bind.bind, Except.bind] <;> rfl
  | error f rest => cases hclose : close rest <;> simp only [hclose] <;> rfl

theorem verdict_bracketed (inside : Scan α) (close : Scan Unit) (c : Char) (cs : List Char) :
    (bracketed inside close).verdict (c :: cs) = (closedBy inside close).verdict cs := rfl

theorem verdict_nested_succ (inside : Nat → Scan α) (close : Scan Unit) (depth : Nat) :
    verdict (nested inside close (depth + 1)) = verdict (bracketed (inside depth) close) := rfl

/-- What is looked at in the result of a reader, so that reading remains a composition. -/
structure View (M : Type → Type) [Monad M] where
  see {α : Type} : EStateM.Result Fault (List Char) α → M (α × List Char)
  see_ok {α : Type} (a : α) (rest : List Char) : see (.ok a rest) = pure (a, rest)
  see_bind {α β : Type} (scan : Scan α) (next : α → Scan β) (cs : List Char) :
    see ((scan >>= next) cs) = see (scan cs) >>= fun p => see (next p.1 p.2)

def successes : View Option where
  see
    | .ok a rest => some (a, rest)
    | .error _ _ => none
  see_ok _ _ := rfl
  see_bind := success_bind

def verdicts : View (Except Cause) where
  see
    | .ok a rest => .ok (a, rest)
    | .error f _ => .error f.cause
  see_ok _ _ := rfl
  see_bind := verdict_bind

end Scan

open Scan

/-! White space -/

theorem skipBlanks_append {blanks : List Char} (h : AllBlank blanks) (cs : List Char) :
    skipBlanks (blanks ++ cs) = skipBlanks cs := by
  induction blanks with
  | nil => rfl
  | cons c blanks ih =>
    have hc : isBlank c := h c (List.mem_cons_self ..)
    rw [List.cons_append, skipBlanks, List.dropWhile_cons_of_pos hc]
    exact ih fun d hd => h d (List.mem_cons_of_mem c hd)

theorem skipBlanks_cons {c : Char} (h : isBlank c = false) (cs : List Char) :
    skipBlanks (c :: cs) = c :: cs := by
  rw [skipBlanks, List.dropWhile_cons_of_neg (by simp [h])]

theorem skipBlanks_append_cons {blanks : List Char} (hblanks : AllBlank blanks) {c : Char}
    (hc : isBlank c = false) (cs : List Char) :
    skipBlanks (blanks ++ c :: cs) = c :: cs := by
  rw [skipBlanks_append hblanks, skipBlanks_cons hc]

theorem skipBlanks_allBlank {blanks : List Char} (h : AllBlank blanks) :
    skipBlanks blanks = [] := by
  have hskip := skipBlanks_append h []
  rwa [List.append_nil] at hskip

theorem allBlank_nil : AllBlank [] := by
  intro c hc
  simp at hc

theorem AllBlank.append {cs ds : List Char} (hcs : AllBlank cs) (hds : AllBlank ds) :
    AllBlank (cs ++ ds) := by
  intro c hc
  rcases List.mem_append.mp hc with hc | hc
  · exact hcs c hc
  · exact hds c hc

/-! Single tokens -/

theorem success_word (cs rest : List Char) : (word cs).success (cs ++ rest) = some ((), rest) := by
  induction cs with
  | nil => rfl
  | cons c cs ih =>
    rw [success, List.cons_append]
    simp only [word, if_true]
    exact ih

theorem success_colon {blanks : List Char} (h : AllBlank blanks) (rest : List Char) :
    colon.success (blanks ++ ':' :: rest) = some ((), rest) := by
  simp [success, colon, skipBlanks_append_cons h (c := ':') (by decide)]

theorem success_endList {blanks : List Char} (h : AllBlank blanks) (rest : List Char) :
    endList.success (blanks ++ ']' :: rest) = some ((), rest) := by
  simp [success, endList, skipBlanks_append_cons h (c := ']') (by decide)]

theorem success_endObject {blanks : List Char} (h : AllBlank blanks) (rest : List Char) :
    endObject.success (blanks ++ '}' :: rest) = some ((), rest) := by
  simp [success, endObject, skipBlanks_append_cons h (c := '}') (by decide)]

@[simp] theorem success_endList_cons (rest : List Char) :
    endList.success (']' :: rest) = some ((), rest) :=
  success_endList allBlank_nil rest

@[simp] theorem success_endObject_cons (rest : List Char) :
    endObject.success ('}' :: rest) = some ((), rest) :=
  success_endObject allBlank_nil rest

theorem success_endText {blanks : List Char} (h : AllBlank blanks) :
    endText.success blanks = some ((), []) := by
  simp [success, endText, skipBlanks_allBlank h]

/-- A list ends nowhere but at its bracket. -/
theorem success_endList_of_ne {cs : List Char} {c : Char}
    (h : ∃ tail, skipBlanks cs = c :: tail) (hc : c ≠ ']') : endList.success cs = none := by
  obtain ⟨tail, h⟩ := h
  unfold success endList
  rw [h]
  split
  · rename_i hcomma
    split at hcomma <;> simp_all [failAtNext]
    split at hcomma <;> simp_all
  · rfl

/-- A value of the wrong type is a fault even when it can be read. -/
@[simp] theorem success_wrongType {α : Type} (expected : String) (cs : List Char) :
    (wrongType expected : Scan α).success cs = none := by
  have hscalar : success (do let v ← scalar; reject (.wrongType (found v) expected) : Scan α) cs =
      none := by
    rw [success_bind]
    cases scalar.success cs <;> rfl
  by_cases hlist : ∃ tail, cs = '[' :: tail
  · obtain ⟨tail, rfl⟩ := hlist
    rfl
  by_cases hobject : ∃ tail, cs = '{' :: tail
  · obtain ⟨tail, rfl⟩ := hobject
    rfl
  · have heq : (wrongType expected : Scan α) cs =
        (do let v ← scalar; reject (.wrongType (found v) expected) : Scan α) cs := by
      unfold wrongType
      split <;> simp_all
    rwa [success, heq]

end SceneScript.Json
