import SceneScript.Proofs.Json.NumberLiteral
import SceneScript.Proofs.Json.StringLiteral

/-!
Where a value goes when it is read: the first character of its text tells a list, an object and
the other values apart. Values without parts are read here.
-/
namespace SceneScript.Json

open Scan

/-- A text of a value, all of whose numbers can be read. -/
abbrev IsText : Json → List Char → Prop := Spells NumberLiteral.Reads

/-! The first character of a value -/

theorem isBlank_of_isDigit {c : Char} (h : c.isDigit) : isBlank c = false := by
  by_contra hblank
  simp only [isBlank, Bool.not_eq_false, Bool.or_eq_true, decide_eq_true_eq] at hblank
  rcases hblank with ((rfl | rfl) | rfl) | rfl <;> exact absurd h (by decide)

def IsScalar : Json → Prop
  | .array _ => False
  | .object _ => False
  | _ => True

private theorem scalar_eq_cons {v : Json} {cs : List Char} (h : IsText v cs) (hv : IsScalar v) :
    ∃ c tail, cs = c :: tail ∧ isBlank c = false ∧ c ≠ ']' ∧ c ≠ '[' ∧ c ≠ '{' := by
  cases v with
  | null => exact ⟨'n', _, h, by decide, by decide, by decide, by decide⟩
  | bool b =>
    cases b
    · exact ⟨'f', _, h, by decide, by decide, by decide, by decide⟩
    · exact ⟨'t', _, h, by decide, by decide, by decide, by decide⟩
  | string s =>
    obtain ⟨inside, _, rfl⟩ := h
    exact ⟨'"', _, rfl, by decide, by decide, by decide, by decide⟩
  | number k =>
    obtain ⟨n, _, rfl⟩ := h
    unfold NumberLiteral.chars
    split
    · exact ⟨'-', _, rfl, by decide, by decide, by decide, by decide⟩
    · obtain ⟨d, tail, heq, hd⟩ := n.unsigned_eq_cons
      exact ⟨d, tail, heq, isBlank_of_isDigit hd, Text.ne_of_isDigit hd (by decide),
        Text.ne_of_isDigit hd (by decide), Text.ne_of_isDigit hd (by decide)⟩
  | array vs => exact absurd hv id
  | object ms => exact absurd hv id

theorem array_eq_cons {vs : List Json} {cs : List Char} (h : IsText (.array vs) cs) :
    ∃ inside, cs = '[' :: inside := by
  cases vs with
  | nil =>
    obtain ⟨blanks, _, rfl⟩ := h
    exact ⟨_, rfl⟩
  | cons v vs =>
    obtain ⟨first, others, _, _, rfl⟩ := h
    exact ⟨_, rfl⟩

theorem object_eq_cons {ms : List (String × Json)} {cs : List Char} (h : IsText (.object ms) cs) :
    ∃ inside, cs = '{' :: inside := by
  cases ms with
  | nil =>
    obtain ⟨blanks, _, rfl⟩ := h
    exact ⟨_, rfl⟩
  | cons m ms =>
    obtain ⟨key, value, others, _, _, _, rfl⟩ := h
    exact ⟨_, rfl⟩

theorem IsText.eq_cons {v : Json} {cs : List Char} (h : IsText v cs) :
    ∃ c tail, cs = c :: tail ∧ isBlank c = false ∧ c ≠ ']' := by
  by_cases hv : IsScalar v
  · obtain ⟨c, tail, heq, hblank, hne, _⟩ := scalar_eq_cons h hv
    exact ⟨c, tail, heq, hblank, hne⟩
  · cases v with
    | array vs =>
      obtain ⟨inside, rfl⟩ := array_eq_cons h
      exact ⟨'[', inside, rfl, by decide, by decide⟩
    | object ms =>
      obtain ⟨inside, rfl⟩ := object_eq_cons h
      exact ⟨'{', inside, rfl, by decide, by decide⟩
    | _ => exact absurd trivial hv

/-! Which of its readers a value goes to -/

section

variable {α : Type} {list object other : Scan α} {blanks text rest : List Char}

private theorem valueOf_cons (hblanks : AllBlank blanks) {c : Char}
    (hc : isBlank c = false) (cs : List Char) :
    valueOf list object other (blanks ++ c :: cs) =
      placed (if c = '[' then list else if c = '{' then object else other) (c :: cs) := by
  simp only [valueOf, placed, skipBlanks_append_cons hblanks hc]
  by_cases hlist : c = '['
  · simp only [hlist, if_true]
  · by_cases hobject : c = '{'
    · subst hobject
      simp only [hlist, if_true, if_false]
    · simp only [hlist, hobject, if_false]

theorem valueOf_array {vs : List Json} (h : IsText (.array vs) text) (hblanks : AllBlank blanks) :
    valueOf list object other (blanks ++ (text ++ rest)) = placed list (text ++ rest) := by
  obtain ⟨inside, rfl⟩ := array_eq_cons h
  rw [List.cons_append, valueOf_cons hblanks (by decide), if_pos rfl]

theorem valueOf_object {ms : List (String × Json)} (h : IsText (.object ms) text)
    (hblanks : AllBlank blanks) :
    valueOf list object other (blanks ++ (text ++ rest)) = placed object (text ++ rest) := by
  obtain ⟨inside, rfl⟩ := object_eq_cons h
  rw [List.cons_append, valueOf_cons hblanks (by decide), if_neg (by decide), if_pos rfl]

theorem valueOf_scalar {v : Json} (h : IsText v text) (hv : IsScalar v)
    (hblanks : AllBlank blanks) :
    valueOf list object other (blanks ++ (text ++ rest)) = placed other (text ++ rest) := by
  obtain ⟨c, tail, rfl, hblank, _, hlist, hobject⟩ := scalar_eq_cons h hv
  rw [List.cons_append, valueOf_cons hblanks hblank, if_neg hlist, if_neg hobject]

theorem success_valueOf_array {vs : List Json} (h : IsText (.array vs) text)
    (hblanks : AllBlank blanks) :
    (valueOf list object other).success (blanks ++ (text ++ rest)) =
      list.success (text ++ rest) := by
  rw [success, valueOf_array h hblanks]
  exact success_placed list _

theorem success_valueOf_object {ms : List (String × Json)} (h : IsText (.object ms) text)
    (hblanks : AllBlank blanks) :
    (valueOf list object other).success (blanks ++ (text ++ rest)) =
      object.success (text ++ rest) := by
  rw [success, valueOf_object h hblanks]
  exact success_placed object _

theorem success_valueOf_scalar {v : Json} (h : IsText v text) (hv : IsScalar v)
    (hblanks : AllBlank blanks) :
    (valueOf list object other).success (blanks ++ (text ++ rest)) =
      other.success (text ++ rest) := by
  rw [success, valueOf_scalar h hv hblanks]
  exact success_placed other _

theorem verdict_valueOf_array {vs : List Json} (h : IsText (.array vs) text)
    (hblanks : AllBlank blanks) :
    (valueOf list object other).verdict (blanks ++ (text ++ rest)) =
      list.verdict (text ++ rest) := by
  rw [verdict, valueOf_array h hblanks]
  exact verdict_placed list _

theorem verdict_valueOf_object {ms : List (String × Json)} (h : IsText (.object ms) text)
    (hblanks : AllBlank blanks) :
    (valueOf list object other).verdict (blanks ++ (text ++ rest)) =
      object.verdict (text ++ rest) := by
  rw [verdict, valueOf_object h hblanks]
  exact verdict_placed object _

theorem verdict_valueOf_scalar {v : Json} (h : IsText v text) (hv : IsScalar v)
    (hblanks : AllBlank blanks) :
    (valueOf list object other).verdict (blanks ++ (text ++ rest)) =
      other.verdict (text ++ rest) := by
  rw [verdict, valueOf_scalar h hv hblanks]
  exact verdict_placed other _

end

private theorem scalar_of_isDigit {c : Char} (h : c.isDigit) (cs : List Char) :
    scalar.success (c :: cs) = success (.number <$> readNumber false) (c :: cs) := by
  have hn : c ≠ 'n' := Text.ne_of_isDigit h (by decide)
  have ht : c ≠ 't' := Text.ne_of_isDigit h (by decide)
  have hf : c ≠ 'f' := Text.ne_of_isDigit h (by decide)
  have hminus : c ≠ '-' := Text.ne_of_isDigit h (by decide)
  rw [success, scalar]
  simp only [hn, ht, hf, hminus, h, if_true, if_false]
  rfl

theorem success_scalar {v : Json} {text rest : List Char} (h : IsText v text) (hv : IsScalar v)
    (hrest : Ends rest) : scalar.success (text ++ rest) = some (v, rest) := by
  cases v with
  | null =>
    obtain rfl : text = 'n' :: ['u', 'l', 'l'] := h
    change success (do word ['u', 'l', 'l']; pure Json.null : Scan Json)
      (['u', 'l', 'l'] ++ rest) = _
    rw [success_bind, success_word, Option.bind_some, success_pure]
  | bool b =>
    cases b
    · obtain rfl : text = 'f' :: ['a', 'l', 's', 'e'] := h
      change success (do word ['a', 'l', 's', 'e']; pure (Json.bool false) : Scan Json)
        (['a', 'l', 's', 'e'] ++ rest) = _
      rw [success_bind, success_word, Option.bind_some, success_pure]
    · obtain rfl : text = 't' :: ['r', 'u', 'e'] := h
      change success (do word ['r', 'u', 'e']; pure (Json.bool true) : Scan Json)
        (['r', 'u', 'e'] ++ rest) = _
      rw [success_bind, success_word, Option.bind_some, success_pure]
  | string s =>
    obtain ⟨inside, hinside, rfl⟩ := h
    have hread := success_readString hinside rest
    change success (Json.string <$> readString) (inside ++ ['"'] ++ rest) = _
    rw [success_map, List.append_assoc, List.cons_append, List.nil_append, hread, Option.map_some]
  | number k =>
    obtain ⟨n, hk, rfl⟩ := h
    have hread := n.success_readNumber hrest
    rw [hk, Option.map_some] at hread
    unfold NumberLiteral.chars
    cases hsign : n.isNegative with
    | true =>
      rw [hsign] at hread
      change success (Json.number <$> readNumber true) (n.unsigned ++ rest) = _
      rw [success_map, hread, Option.map_some]
    | false =>
      obtain ⟨d, tail, heq, hd⟩ := n.unsigned_eq_cons
      rw [hsign, heq, List.cons_append] at hread
      change scalar.success (n.unsigned ++ rest) = _
      rw [heq, List.cons_append, scalar_of_isDigit hd, success_map, hread, Option.map_some]
  | array vs => exact absurd hv id
  | object ms => exact absurd hv id

/-- A value of the wrong type is told by its kind, and by what it is if it has no parts. -/
theorem verdict_wrongType {α : Type} {v : Json} {text rest : List Char} (h : IsText v text)
    (hrest : Ends rest) (expected : String) :
    (wrongType expected : Scan α).verdict (text ++ rest) =
      .error (.unsuitable (.wrongType (found v) expected)) := by
  by_cases hv : IsScalar v
  · have hscalar := verdict_of_success (success_scalar h hv hrest)
    obtain ⟨c, tail, rfl, _, _, hlist, hobject⟩ := scalar_eq_cons h hv
    have heq : (wrongType expected : Scan α) (c :: tail ++ rest) =
        (do let v ← scalar; reject (.wrongType (found v) expected) : Scan α)
          (c :: tail ++ rest) := by
      unfold wrongType
      split <;> simp_all
    rw [verdict, heq]
    change verdict _ _ = _
    rw [verdict_bind, hscalar]
    rfl
  · cases v with
    | array vs =>
      obtain ⟨inside, rfl⟩ := array_eq_cons h
      rfl
    | object ms =>
      obtain ⟨inside, rfl⟩ := object_eq_cons h
      rfl
    | _ => exact absurd trivial hv

end SceneScript.Json
