import SceneScript.Proofs.Json.Record

/-!
Values of several shapes that are told by a tag. In the object form the tag is given once, at
whatever place, and the other members are what the variant is read from.
-/
namespace SceneScript.Json

variable {α : Type}

namespace Tagged

variable (t : Tagged α)

/-- The members of an object told apart: the one with the tag, and the others in their order. -/
structure Told (ms : List (String × Json)) (parts : Parts α) : Prop where
  others : parts.others = ms.filter fun m => m.1 ≠ t.tag
  lacks : parts.payload = none → Lacks ms t.tag
  sole : ∀ payload, parts.payload = some payload →
    ∃ v, Sole ms t.tag v ∧ t.keyword.fromValue v = .ok payload

variable {t}

/-- A member is the tag, of which there may be one, or is kept with the others. -/
theorem memberOfValue_eq_ok_iff {parts parts' : Parts α} {m : String × Json} :
    t.memberOfValue parts m = .ok parts' ↔
      (m.1 = t.tag ∧ parts.payload = none ∧ ∃ payload, t.keyword.fromValue m.2 = .ok payload ∧
        parts' = ⟨some payload, parts.others⟩) ∨
      (m.1 ≠ t.tag ∧ parts' = ⟨parts.payload, parts.others ++ [m]⟩) := by
  unfold memberOfValue
  by_cases htag : m.1 = t.tag
  · cases hpayload : parts.payload with
    | some payload => simp [htag]
    | none =>
      simp only [htag, if_true, Option.isSome_none, Bool.false_eq_true, if_false, pure, Except.pure,
        except_bind_eq_ok_iff, Except.ok.injEq, ne_eq, not_true, false_and, or_false, true_and]
      simp only [eq_comm]
  · simp [htag, eq_comm]

theorem Told.snoc {ms : List (String × Json)} {m : String × Json} {parts parts' : Parts α}
    (h : t.Told ms parts) (hm : t.memberOfValue parts m = .ok parts') :
    t.Told (ms ++ [m]) parts' := by
  rcases memberOfValue_eq_ok_iff.mp hm with
    ⟨htag, hnone, payload, hpayload, rfl⟩ | ⟨htag, rfl⟩
  · refine ⟨by simp [h.others, htag], by simp, ?_⟩
    intro payload' heq
    obtain rfl : payload = payload' := by simpa using heq
    exact ⟨m.2, sole_snoc_iff.mpr (Or.inr ⟨h.lacks hnone, by rw [← htag]⟩), hpayload⟩
  · refine ⟨by simp [h.others, htag], fun hnone => lacks_snoc_iff.mpr ⟨h.lacks hnone, htag⟩, ?_⟩
    intro payload hsome
    obtain ⟨v, hsole, hv⟩ := h.sole payload hsome
    exact ⟨v, sole_snoc_iff.mpr (Or.inl ⟨hsole, htag⟩), hv⟩

theorem Told.exists_of_snoc {ms : List (String × Json)} {m : String × Json} {parts : Parts α}
    (h : t.Told (ms ++ [m]) parts) :
    ∃ before, t.Told ms before ∧ t.memberOfValue before m = .ok parts := by
  by_cases htag : m.1 = t.tag
  · cases hpayload : parts.payload with
    | none => exact absurd htag (lacks_snoc_iff.mp (h.lacks hpayload)).2
    | some payload =>
      obtain ⟨v, hsole, hv⟩ := h.sole payload hpayload
      rcases sole_snoc_iff.mp hsole with ⟨_, hne⟩ | ⟨hlacks, rfl⟩
      · exact absurd htag hne
      · refine ⟨⟨none, parts.others⟩, ⟨by simp [h.others], fun _ => hlacks, by simp⟩, ?_⟩
        refine memberOfValue_eq_ok_iff.mpr (Or.inl ⟨rfl, rfl, payload, hv, ?_⟩)
        rw [← hpayload]
  · refine ⟨⟨parts.payload, ms.filter fun m => m.1 ≠ t.tag⟩, ⟨rfl, ?_, ?_⟩, ?_⟩
    · intro hnone
      exact (lacks_snoc_iff.mp (h.lacks hnone)).1
    · intro payload hsome
      obtain ⟨v, hsole, hv⟩ := h.sole payload hsome
      rcases sole_snoc_iff.mp hsole with ⟨hsole, _⟩ | ⟨_, rfl⟩
      · exact ⟨v, hsole, hv⟩
      · exact absurd rfl htag
    · refine memberOfValue_eq_ok_iff.mpr (Or.inr ⟨htag, ?_⟩)
      have hothers := h.others
      simp only [List.filter_append] at hothers
      rw [show parts = ⟨parts.payload, parts.others⟩ from rfl, hothers]
      simp [htag]

theorem foldlM_memberOfValue_eq_ok_iff {ms : List (String × Json)} {parts : Parts α} :
    ms.foldlM t.memberOfValue {} = .ok parts ↔ t.Told ms parts := by
  induction ms using List.reverseRecOn generalizing parts with
  | nil =>
    simp only [List.foldlM_nil, pure, Except.pure, Except.ok.injEq]
    constructor
    · intro h
      subst h
      exact ⟨rfl, fun _ m hm => absurd hm (by simp), by simp⟩
    · intro h
      obtain ⟨hothers, _, hsole⟩ := h
      obtain ⟨payload, others⟩ := parts
      cases payload with
      | none => rw [show others = [] from hothers]
      | some payload =>
        obtain ⟨v, hv, _⟩ := hsole payload rfl
        simp [Sole] at hv
  | append_singleton ms m ih =>
    rw [List.foldlM_append, except_bind_eq_ok_iff]
    simp only [List.foldlM_cons, List.foldlM_nil, bind_pure, ih]
    constructor
    · intro h
      obtain ⟨before, hbefore, hm⟩ := h
      exact hbefore.snoc hm
    · exact Told.exists_of_snoc

/-- The object form of what is told by a tag. -/
theorem fromValue_object_eq_ok_iff {ms : List (String × Json)} {a : α} :
    t.reader.fromValue (.object ms) = .ok a ↔
      ∃ v payload, Sole ms t.tag v ∧ t.keyword.fromValue v = .ok payload ∧
        payload.fromValue (.object (ms.filter fun m => m.1 ≠ t.tag)) = .ok a := by
  simp only [reader, variantOfValue, except_bind_eq_ok_iff, foldlM_memberOfValue_eq_ok_iff]
  constructor
  · intro h
    obtain ⟨⟨payload, rest⟩, ⟨parts, htold, hcomplete⟩, ha⟩ := h
    cases hpayload : parts.payload with
    | none => simp [Parts.complete, hpayload] at hcomplete
    | some found =>
      simp only [Parts.complete, hpayload, Except.ok.injEq, Prod.mk.injEq] at hcomplete
      obtain ⟨rfl, rfl⟩ := hcomplete
      obtain ⟨v, hsole, hv⟩ := htold.sole found hpayload
      exact ⟨v, found, hsole, hv, by rw [← htold.others]; exact ha⟩
  · intro h
    obtain ⟨v, payload, hsole, hv, ha⟩ := h
    refine ⟨(payload, _), ⟨⟨some payload, _⟩, ⟨rfl, by simp, ?_⟩, rfl⟩, ha⟩
    intro payload' heq
    obtain rfl : payload = payload' := by simpa using heq
    exact ⟨v, hsole, hv⟩

/-- The list form of what is told by a tag. -/
theorem fromValue_array_eq_ok_iff {vs : List Json} {a : α} :
    t.reader.fromValue (.array vs) = .ok a ↔
      ∃ v ws payload, vs = v :: ws ∧ t.keyword.fromValue v = .ok payload ∧
        payload.fromValue (.array ws) = .ok a := by
  cases vs with
  | nil => simp [reader, variantOfValue, except_bind_eq_ok_iff]
  | cons v ws =>
    simp only [reader, variantOfValue, except_bind_eq_ok_iff]
    constructor
    · intro h
      obtain ⟨_, ⟨payload, hv, ⟨⟩⟩, ha⟩ := h
      exact ⟨v, ws, payload, rfl, hv, ha⟩
    · intro h
      obtain ⟨_, _, payload, ⟨⟩, hv, ha⟩ := h
      exact ⟨_, ⟨payload, hv, rfl⟩, ha⟩

end Tagged

end SceneScript.Json
