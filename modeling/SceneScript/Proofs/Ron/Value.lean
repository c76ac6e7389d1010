import SceneScript.Proofs.Ron.NumberLiteral
import SceneScript.Proofs.Ron.TextLiteral
import SceneScript.Ron.Value

/-!
Plain values are passed over whole. A value is told by the words that are tried first, then as an
identifier, and then by its first character.
-/
namespace SceneScript.Ron

theorem reads_consumeIdentifier_of_refuses {text : List Char}
    (h : ∃ fault, Refuses identifier text fault) : Reads consumeIdentifier text false text := by
  intro p
  obtain ⟨fault, h⟩ := h
  obtain ⟨cursor, h⟩ := h p
  exact ⟨p, by simp only [consumeIdentifier, h]⟩

theorem reads_consumeWord {word : String} {cs : List Char} (h : word.toList = cs)
    {rest : List Char} (hrest : Delimited rest) :
    Reads (consumeWord word) (cs ++ rest) true rest := by
  obtain ⟨c, tail, rfl, hc⟩ := hrest
  have hother := Delimited.not_isOther ⟨c, tail, rfl, hc⟩ c rfl
  intro p
  refine ⟨cs.foldl Cursor.behind p, ?_⟩
  subst h
  simp [consumeWord, startsWithWord, hother, Cursor.advance]

theorem reads_consumeWord_of_not {word : String} {text : List Char}
    (h : word.toList.isPrefixOf text = false) : Reads (consumeWord word) text false text :=
  fun p => ⟨p, by simp [consumeWord, startsWithWord, h]⟩

/-- The words that are tried before anything else. -/
def words : List String := ["true", "false", "Some", "None", "()", "inf", "-inf", "NaN"]

def Wordless (text : List Char) : Prop := ∀ word ∈ words, word.toList.isPrefixOf text = false

section

variable {implicitSome : Bool} {enter key element wrapped : Scan Unit}

/-- A truth value is passed over before it is taken for an identifier. -/
theorem reads_valueWith_flag (b : Bool) {cs : List Char} (h : SpellsScalar (.flag b) cs)
    {rest : List Char} (hrest : Delimited rest) :
    Reads (valueWith implicitSome enter key element wrapped) (cs ++ rest) () rest := by
  have hconstant : Reads consumeConstant (cs ++ rest) true rest := by
    cases h with
    | yes => exact (reads_consumeWord rfl hrest).bind (reads_pure true rest)
    | no =>
      have hyes : "true".toList.isPrefixOf (['f', 'a', 'l', 's', 'e'] ++ rest) = false := rfl
      exact (reads_consumeWord_of_not hyes).bind
        ((reads_consumeWord rfl hrest).bind (reads_pure true rest))
  exact hconstant.bind (reads_pure () rest)

/-- A value that is neither a word nor an identifier is told by its first character. -/
theorem reads_valueWith_literal {c : Char} {tail rest : List Char} (hwords : Wordless (c :: tail))
    (hidentifier : ∃ fault, Refuses identifier (c :: tail) fault)
    (hliteral : (c.isDigit ∨ c = '+' ∨ c = '-') ∧ Reads number (c :: tail) () rest ∨
      (c = '"' ∨ c = 'r') ∧ Reads string (c :: tail) () rest) :
    Reads (valueWith implicitSome enter key element wrapped) (c :: tail) () rest := by
  have hword (word : String) (h : word ∈ words) :
      Reads (consumeWord word) (c :: tail) false (c :: tail) :=
    reads_consumeWord_of_not (hwords word h)
  have hconstant : Reads consumeConstant (c :: tail) false (c :: tail) :=
    (hword "true" (by decide)).bind ((hword "false" (by decide)).bind (reads_pure false _))
  have hempty : Reads consumeEmpty (c :: tail) false (c :: tail) :=
    (hword "None" (by decide)).bind ((reads_consume_of_not (hwords "()" (by decide))).bind
      ((hword "inf" (by decide)).bind ((hword "-inf" (by decide)).bind
        (hword "NaN" (by decide)))))
  refine hconstant.bind ((hword "Some" (by decide)).bind (hempty.bind
    ((reads_consumeIdentifier_of_refuses hidentifier).bind ((reads_peekOrEnd c tail).bind ?_))))
  rcases hliteral with ⟨hc, h⟩ | ⟨hc, h⟩
  · have hopen : c ≠ '(' ∧ c ≠ '[' ∧ c ≠ '{' := by
      rcases hc with hc | rfl | rfl
      · refine ⟨?_, ?_, ?_⟩ <;> rintro rfl <;> exact absurd hc (by decide)
      · decide
      · decide
    rw [if_neg hopen.1, if_neg hopen.2.1, if_neg hopen.2.2, if_pos hc]
    exact h
  · rcases hc with rfl | rfl
    · exact h
    · exact h

end

/-- Words begin with letters, and integers do not. -/
theorem wordless_integer {sign : List Char} {d : Char} (hsign : IsSign sign) (hd : d.isDigit)
    (tail : List Char) : Wordless (sign ++ d :: tail) := by
  have hwords : words.all fun word => hasNoDigit word.toList := by decide +kernel
  exact fun word hword =>
    isPrefixOf_digit hsign hd tail (List.all_eq_true.mp hwords word hword)

theorem wordless_string {c : Char} (hc : c = '"' ∨ c = 'r') (tail : List Char) :
    Wordless (c :: tail) := by
  intro word hword
  simp only [words, List.mem_cons, List.not_mem_nil, or_false] at hword
  rcases hword with rfl | rfl | rfl | rfl | rfl | rfl | rfl | rfl <;>
    rcases hc with rfl | rfl <;> rfl

/-- A literal of the grammar is passed over, whatever is open in front of it. -/
theorem reads_valueWith {implicitSome : Bool} {enter key element wrapped : Scan Unit}
    {value : Scalar} {cs : List Char} (h : SpellsScalar value cs) {rest : List Char}
    (hrest : Delimited rest) :
    Reads (valueWith implicitSome enter key element wrapped) (cs ++ rest) () rest := by
  cases h with
  | yes => exact reads_valueWith_flag true .yes hrest
  | no => exact reads_valueWith_flag false .no hrest
  | @integer sign digits hsign hlead hdigits hgrouped =>
    obtain ⟨d, ds, rfl⟩ : ∃ d ds, digits = d :: ds := by
      cases digits with
      | nil => cases hlead
      | cons d ds => exact ⟨d, ds, rfl⟩
    have hd : d.isDigit := by simpa using hlead
    have hnumber := reads_number hsign hd (List.forall_mem_cons.mp hdigits).2 hgrouped hrest
    have hwords := wordless_integer hsign hd (ds ++ rest)
    rcases hsign with rfl | rfl | rfl
    · exact reads_valueWith_literal hwords (exists_refuses_identifier (isFirst_of_isDigit hd) _)
        (.inl ⟨.inl hd, hnumber⟩)
    · exact reads_valueWith_literal hwords (exists_refuses_identifier (by decide) _)
        (.inl ⟨.inr (.inl rfl), hnumber⟩)
    · exact reads_valueWith_literal hwords (exists_refuses_identifier (by decide) _)
        (.inl ⟨.inr (.inr rfl), hnumber⟩)
  | text h =>
    have hstring := reads_string h rest
    rw [List.cons_append, List.cons_append, List.append_assoc]
    exact reads_valueWith_literal (wordless_string (.inl rfl) _)
      (exists_refuses_identifier (by decide) _) (.inr ⟨.inl rfl, hstring⟩)
  | @rawText cs signs h =>
    have hstring := reads_string_raw h rest
    have hidentifier := exists_refuses_identifier_raw signs
      (cs ++ '"' :: (List.replicate signs '#' ++ rest))
    simp only [List.cons_append, List.append_assoc] at hidentifier ⊢
    exact reads_valueWith_literal (wordless_string (.inr rfl) _) hidentifier
      (.inr ⟨.inr rfl, hstring⟩)

/-- Limits on nesting do not matter here. -/
theorem reads_value {value' : Scalar} {cs : List Char} (h : SpellsScalar value' cs)
    {rest : List Char} (hrest : Delimited rest) (implicitSome : Bool) (limit : Nat) :
    Reads (value implicitSome limit) (cs ++ rest) () rest := by
  unfold value
  split <;> exact reads_valueWith h hrest

end SceneScript.Ron
