import Mathlib.Data.List.Forall2

/-!
Computations that can fail: how one that is made of several succeeds, and what becomes of its faults
when they are called by other names.
-/
namespace SceneScript

variable {ε δ α β σ : Type}

theorem toOption_eq_some_iff {x : Except ε α} {a : α} :
    x.toOption = some a ↔ x = .ok a := by
  cases x <;> simp [Except.toOption]

@[simp] theorem toOption_bind (x : Except ε α) (f : α → Except ε β) :
    (x >>= f).toOption = x.toOption.bind fun a => (f a).toOption := by
  cases x <;> rfl

@[simp] theorem toOption_map (f : α → β) (x : Except ε α) :
    (f <$> x).toOption = x.toOption.map f := by
  cases x <;> rfl

/-- A traversal stops at its first failure, whichever fault that is. -/
theorem toOption_mapM (f : α → Except ε β) (as : List α) :
    (as.mapM f).toOption = as.mapM fun a => (f a).toOption := by
  induction as with
  | nil => rfl
  | cons a as ih =>
    simp only [List.mapM_cons, toOption_bind, ih]
    rfl

theorem toOption_foldlM (f : σ → α → Except ε σ) (s : σ) (as : List α) :
    (as.foldlM f s).toOption = as.foldlM (fun s a => (f s a).toOption) s := by
  induction as generalizing s with
  | nil => rfl
  | cons a as ih => simp only [List.foldlM_cons, toOption_bind, ih, Option.bind_eq_bind]

theorem except_bind_eq_ok_iff {x : Except ε α} {f : α → Except ε β} {b : β} :
    (x >>= f) = .ok b ↔ ∃ a, x = .ok a ∧ f a = .ok b := by
  cases x with
  | error e => simp [Bind.bind, Except.bind]
  | ok a => simp [Bind.bind, Except.bind]

theorem mapM_eq_ok_iff {f : α → Except ε β} {as : List α} {bs : List β} :
    as.mapM f = .ok bs ↔ List.Forall₂ (fun a b => f a = .ok b) as bs := by
  induction as generalizing bs with
  | nil => simp [pure, Except.pure, eq_comm]
  | cons a as ih =>
    simp only [List.mapM_cons, except_bind_eq_ok_iff, ih, List.forall₂_cons_left_iff]
    constructor
    · intro h
      obtain ⟨b, hb, bs', hbs, heq⟩ := h
      exact ⟨b, bs', hb, hbs, by simpa [pure, Except.pure, eq_comm] using heq⟩
    · intro h
      obtain ⟨b, bs', hb, hbs, rfl⟩ := h
      exact ⟨b, hb, bs', hbs, rfl⟩

theorem mapError_eq_ok_iff {f : ε → δ} {x : Except ε α} {a : α} :
    x.mapError f = .ok a ↔ x = .ok a := by
  cases x <;> simp [Except.mapError]

/-- Renaming faults does not change which of two operations fails. -/
theorem mapError_bind (c : ε → δ) (x : Except ε α) (f : α → Except ε β) :
    (x >>= f).mapError c = x.mapError c >>= fun a => (f a).mapError c := by
  cases x <;> rfl

theorem mapError_foldlM (c : ε → δ) (f : σ → α → Except ε σ) (s : σ) (as : List α) :
    (as.foldlM f s).mapError c = as.foldlM (fun s a => (f s a).mapError c) s := by
  induction as generalizing s with
  | nil => rfl
  | cons a as ih => simp only [List.foldlM_cons, mapError_bind, ih]

end SceneScript
