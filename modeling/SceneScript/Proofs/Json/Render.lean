import SceneScript.Proofs.Json.StringLiteral

/-!
What the two writers put down for a value is one of its spellings. Only values without numbers are
considered, and without `null` and truth values: documents are written with no other leaves than
strings.
-/
namespace SceneScript.Json

mutual

def IsTextual : Json → Prop
  | .string _ => True
  | .array vs => ItemsTextual vs
  | .object ms => MembersTextual ms
  | _ => False

def ItemsTextual : List Json → Prop
  | [] => True
  | v :: vs => IsTextual v ∧ ItemsTextual vs

def MembersTextual : List (String × Json) → Prop
  | [] => True
  | (_, v) :: ms => IsTextual v ∧ MembersTextual ms

end

theorem itemsTextual_iff {vs : List Json} : ItemsTextual vs ↔ ∀ v ∈ vs, v.IsTextual := by
  induction vs with
  | nil => simp [ItemsTextual]
  | cons v vs ih => simp [ItemsTextual, ih]

theorem membersTextual_iff {ms : List (String × Json)} :
    MembersTextual ms ↔ ∀ m ∈ ms, m.2.IsTextual := by
  induction ms with
  | nil => simp [MembersTextual]
  | cons m ms ih => simp [MembersTextual, ih]

theorem padded_of_spells {spelled : List Char → Prop} {before inside after : List Char}
    (hbefore : AllBlank before) (h : spelled inside) (hafter : AllBlank after) :
    Padded spelled (before ++ inside ++ after) :=
  ⟨before, inside, after, hbefore, h, hafter, rfl⟩

theorem padded_self {spelled : List Char → Prop} {inside : List Char} (h : spelled inside) :
    Padded spelled inside := by
  have hpadded := padded_of_spells allBlank_nil h allBlank_nil
  rwa [List.nil_append, List.append_nil] at hpadded

theorem allBlank_lineBreak (level : Nat) : AllBlank (lineBreak level) := by
  intro c hc
  rcases List.mem_cons.mp hc with rfl | hc
  · decide
  · rw [List.eq_of_mem_replicate hc]
    decide

theorem allBlank_space : AllBlank [' '] := by
  intro c hc
  rw [List.mem_singleton.mp hc]
  decide

section

variable (numeral : Number → List Char → Prop)

mutual

theorem spells_compact : ∀ v : Json, v.IsTextual → Spells numeral v v.compact
  | .string s, _ => spellsString_stringLiteral s
  | .array [], _ => ⟨[], allBlank_nil, rfl⟩
  | .array (v :: vs), h =>
    ⟨v.compact, compactItems vs, padded_self (spells_compact v h.1), spells_compactItems vs h.2,
      rfl⟩
  | .object [], _ => ⟨[], allBlank_nil, rfl⟩
  | .object ((k, v) :: ms), h =>
    ⟨stringLiteral k, v.compact, compactMembers ms, padded_self (spellsString_stringLiteral k),
      padded_self (spells_compact v h.1), spells_compactMembers ms h.2, rfl⟩

theorem spells_compactItems :
    ∀ vs : List Json, ItemsTextual vs → SpellsItems numeral vs (compactItems vs)
  | [], _ => rfl
  | v :: vs, h =>
    ⟨v.compact, compactItems vs, padded_self (spells_compact v h.1), spells_compactItems vs h.2,
      rfl⟩

theorem spells_compactMembers :
    ∀ ms : List (String × Json), MembersTextual ms → SpellsMembers numeral ms (compactMembers ms)
  | [], _ => rfl
  | (k, v) :: ms, h =>
    ⟨stringLiteral k, v.compact, compactMembers ms, padded_self (spellsString_stringLiteral k),
      padded_self (spells_compact v h.1), spells_compactMembers ms h.2, rfl⟩

end

mutual

theorem spells_pretty : ∀ (v : Json) (level : Nat), v.IsTextual → Spells numeral v (v.pretty level)
  | .string s, _, _ => spellsString_stringLiteral s
  | .array [], _, _ => ⟨[], allBlank_nil, rfl⟩
  | .array (v :: vs), level, h => by
    obtain ⟨blanks, others, hblanks, hothers, heq⟩ := spells_prettyItems vs level h.2
    exact ⟨lineBreak (level + 1) ++ v.pretty (level + 1) ++ blanks, others,
      padded_of_spells (allBlank_lineBreak (level + 1)) (spells_pretty v (level + 1) h.1) hblanks,
      hothers, by simp [pretty, heq]⟩
  | .object [], _, _ => ⟨[], allBlank_nil, rfl⟩
  | .object ((k, v) :: ms), level, h => by
    obtain ⟨blanks, others, hblanks, hothers, heq⟩ := spells_prettyMembers ms level h.2
    exact ⟨lineBreak (level + 1) ++ stringLiteral k ++ [],
      [' '] ++ v.pretty (level + 1) ++ blanks, others,
      padded_of_spells (allBlank_lineBreak (level + 1)) (spellsString_stringLiteral k)
        allBlank_nil,
      padded_of_spells allBlank_space (spells_pretty v (level + 1) h.1) hblanks, hothers,
      by simp [pretty, heq]⟩

/-- The line break in front of the end of a list belongs to the item before it. -/
theorem spells_prettyItems : ∀ (vs : List Json) (level : Nat), ItemsTextual vs →
    ∃ blanks others, AllBlank blanks ∧ SpellsItems numeral vs others ∧
      prettyItems level vs = blanks ++ others
  | [], level, _ => ⟨lineBreak level, [']'], allBlank_lineBreak level, rfl, rfl⟩
  | v :: vs, level, h => by
    obtain ⟨blanks, others, hblanks, hothers, heq⟩ := spells_prettyItems vs level h.2
    exact ⟨[], _, allBlank_nil, ⟨lineBreak (level + 1) ++ v.pretty (level + 1) ++ blanks, others,
      padded_of_spells (allBlank_lineBreak (level + 1)) (spells_pretty v (level + 1) h.1) hblanks,
      hothers, rfl⟩, by simp [prettyItems, heq]⟩

theorem spells_prettyMembers : ∀ (ms : List (String × Json)) (level : Nat), MembersTextual ms →
    ∃ blanks others, AllBlank blanks ∧ SpellsMembers numeral ms others ∧
      prettyMembers level ms = blanks ++ others
  | [], level, _ => ⟨lineBreak level, ['}'], allBlank_lineBreak level, rfl, rfl⟩
  | (k, v) :: ms, level, h => by
    obtain ⟨blanks, others, hblanks, hothers, heq⟩ := spells_prettyMembers ms level h.2
    exact ⟨[], _, allBlank_nil, ⟨lineBreak (level + 1) ++ stringLiteral k ++ [],
      [' '] ++ v.pretty (level + 1) ++ blanks, others,
      padded_of_spells (allBlank_lineBreak (level + 1)) (spellsString_stringLiteral k)
        allBlank_nil,
      padded_of_spells allBlank_space (spells_pretty v (level + 1) h.1) hblanks, hothers,
      rfl⟩, by simp [prettyMembers, heq]⟩

end

end

theorem padded_compactText {numeral : Number → List Char → Prop} {v : Json} (h : v.IsTextual) :
    Padded (Spells numeral v) v.compactText.toList := by
  rw [compactText, String.toList_ofList]
  exact padded_self (spells_compact numeral v h)

theorem padded_prettyText {numeral : Number → List Char → Prop} {v : Json} (h : v.IsTextual) :
    Padded (Spells numeral v) v.prettyText.toList := by
  rw [prettyText, String.toList_ofList]
  exact padded_self (spells_pretty numeral v 0 h)

end SceneScript.Json
