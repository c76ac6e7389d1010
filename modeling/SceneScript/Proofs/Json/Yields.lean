import SceneScript.Proofs.Json.Success

/-!
The results that a reader of text can give at all, on whatever text. A result of a composition is
made from results of its parts; the loops keep what a round keeps.
-/
namespace SceneScript.Json

open Scan

variable {α β σ : Type}

namespace Scan

def Yields (scan : Scan α) (a : α) : Prop :=
  ∃ cs rest, scan.success cs = some (a, rest)

theorem yields_of_eq_ok {scan : Scan α} {cs rest : List Char} {a : α}
    (h : scan cs = .ok a rest) : scan.Yields a :=
  ⟨cs, rest, success_of_eq_ok h⟩

theorem yields_pure_iff {a b : α} : Yields (pure a) b ↔ a = b := by
  simp [Yields]

/-- What a sequence of readers gives is given by the last of them, behind something that the first
has given. -/
theorem Yields.bind {scan : Scan α} {next : α → Scan β} {b : β}
    (h : Yields (scan >>= next) b) : ∃ a, scan.Yields a ∧ (next a).Yields b := by
  obtain ⟨cs, rest, h⟩ := h
  rw [success_bind] at h
  obtain ⟨⟨a, behind⟩, ha, hb⟩ := Option.bind_eq_some_iff.mp h
  exact ⟨a, ⟨cs, behind, ha⟩, ⟨behind, rest, hb⟩⟩

theorem Yields.map {scan : Scan α} {f : α → β} {b : β} (h : Yields (f <$> scan) b) :
    ∃ a, scan.Yields a ∧ f a = b := by
  obtain ⟨cs, rest, h⟩ := h
  rw [success_map] at h
  obtain ⟨⟨a, behind⟩, ha, heq⟩ := Option.map_eq_some_iff.mp h
  exact ⟨a, ⟨cs, behind, ha⟩, congrArg Prod.fst heq⟩

theorem Yields.accept {checked : Except Unsuitable α} {a : α}
    (h : (accept checked).Yields a) : checked = .ok a := by
  obtain ⟨cs, rest, h⟩ := h
  cases checked with
  | error fault => simp [Except.toOption] at h
  | ok b => simpa [Except.toOption, eq_comm] using congrArg (Option.map Prod.fst) h

theorem not_yields_reject (fault : Unsuitable) (a : α) : ¬ (reject fault : Scan α).Yields a := by
  intro h
  obtain ⟨cs, rest, h⟩ := h
  simp at h

theorem not_yields_wrongType (expected : String) (a : α) :
    ¬ (wrongType expected : Scan α).Yields a := by
  intro h
  obtain ⟨cs, rest, h⟩ := h
  simp at h

theorem Yields.placed {scan : Scan α} {a : α} (h : (placed scan).Yields a) : scan.Yields a := by
  obtain ⟨cs, rest, h⟩ := h
  exact ⟨cs, rest, by simpa using h⟩

theorem Yields.closedBy {inside : Scan α} {close : Scan Unit} {a : α}
    (h : (closedBy inside close).Yields a) : inside.Yields a := by
  obtain ⟨cs, rest, h⟩ := h
  rw [success_closedBy] at h
  obtain ⟨⟨b, behind⟩, hb, h⟩ := Option.bind_eq_some_iff.mp h
  obtain ⟨q, _, heq⟩ := Option.map_eq_some_iff.mp h
  obtain rfl : b = a := congrArg Prod.fst heq
  exact ⟨cs, behind, hb⟩

theorem Yields.nested {inside : Nat → Scan α} {close : Scan Unit} {depth : Nat} {a : α}
    (h : (nested inside close depth).Yields a) : ∃ less, (inside less).Yields a := by
  obtain ⟨cs, rest, h⟩ := h
  cases depth with
  | zero => cases h
  | succ depth => exact ⟨depth, Yields.closedBy ⟨cs.tail, rest, h⟩⟩

theorem Yields.valueOf {list object scalar : Scan α} {a : α}
    (h : (valueOf list object scalar).Yields a) :
    list.Yields a ∨ object.Yields a ∨ scalar.Yields a := by
  obtain ⟨cs, rest, h⟩ := Yields.placed h
  unfold success at h
  cases hskip : skipBlanks cs with
  | nil => simp [hskip, failAtNext] at h
  | cons c tail =>
    by_cases hlist : c = '['
    · exact Or.inl ⟨_, rest, by simpa [hskip, hlist, success] using h⟩
    by_cases hobject : c = '\x7b'
    · exact Or.inr (Or.inl ⟨_, rest, by simpa [hskip, hobject, success] using h⟩)
    · exact Or.inr (Or.inr ⟨_, rest, by simpa [hskip, hlist, hobject, success] using h⟩)

end Scan

/-! The loops -/

/-- All items of a list have been read as items. -/
theorem yields_items {item : Scan α} {fuel : Nat} {isFirst : Bool} {as : List α}
    (h : (items item fuel isFirst).Yields as) : ∀ a ∈ as, item.Yields a := by
  induction fuel generalizing isFirst as with
  | zero =>
    obtain ⟨cs, rest, h⟩ := h
    cases h
  | succ fuel ih =>
    rw [items] at h
    obtain ⟨hasItem, _, h⟩ := h.bind
    cases hasItem with
    | false =>
      obtain rfl := yields_pure_iff.mp h
      simp
    | true =>
      obtain ⟨a, ha, h⟩ := Yields.bind h
      obtain ⟨others, hothers, h⟩ := h.bind
      obtain rfl := yields_pure_iff.mp h
      intro b hb
      rcases List.mem_cons.mp hb with rfl | hb
      · exact ha
      · exact ih hothers b hb

theorem yields_itemsToEnd {item : Scan α} {isFirst : Bool} {as : List α}
    (h : (itemsToEnd item isFirst).Yields as) : ∀ a ∈ as, item.Yields a := by
  obtain ⟨cs, rest, h⟩ := h
  exact yields_items ⟨cs, rest, h⟩

/-- What each member keeps holds behind all members. -/
theorem yields_members {member : σ → String → Scan σ} {P : σ → Prop}
    (hmember : ∀ s key t, P s → (member s key).Yields t → P t) {fuel : Nat} {isFirst : Bool}
    {s t : σ} (h : (members member fuel isFirst s).Yields t) (hs : P s) : P t := by
  induction fuel generalizing isFirst s with
  | zero =>
    obtain ⟨cs, rest, h⟩ := h
    cases h
  | succ fuel ih =>
    rw [members] at h
    obtain ⟨next, _, h⟩ := h.bind
    cases next with
    | none =>
      obtain rfl := yields_pure_iff.mp h
      exact hs
    | some key =>
      obtain ⟨u, hu, h⟩ := Yields.bind h
      exact ih h (hmember s key u hs hu)

theorem yields_membersToEnd {member : σ → String → Scan σ} {P : σ → Prop}
    (hmember : ∀ s key t, P s → (member s key).Yields t → P t) {s t : σ}
    (h : (membersToEnd member s).Yields t) (hs : P s) : P t := by
  obtain ⟨cs, rest, h⟩ := h
  exact yields_members hmember ⟨cs, rest, h⟩ hs

end SceneScript.Json
