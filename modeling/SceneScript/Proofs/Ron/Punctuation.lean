import SceneScript.Config.Parse
import SceneScript.Proofs.Ron.Value

/-!
What tokens begin with, and what stands between them: layout is passed over up to a token, commas
and the end of a record are told apart, and truth values are read by their letters.
-/
namespace SceneScript.Ron

/-! What tokens begin with -/

theorem mem_delimiters_of_isBlank {c : Char} (h : isBlank c) : c ∈ delimiters := by
  simp only [isBlank, Bool.or_eq_true, decide_eq_true_eq] at h
  rcases h with ((rfl | rfl) | rfl) | rfl <;> decide

theorem bare_cons {c : Char} (h : isBlank c = false ∧ c ≠ '/') (cs : List Char) :
    Bare (c :: cs) := by
  intro d hd
  obtain rfl : c = d := Option.some.inj hd
  exact h

theorem bare_of_isRaw {c : Char} (h : isRaw c) (cs : List Char) : Bare (c :: cs) := by
  have hmem : c ∉ delimiters := by
    intro hmem
    rw [(not_mem_of_mem_delimiters hmem).1] at h
    cases h
  refine bare_cons ⟨?_, ?_⟩ cs
  · by_contra hblank
    exact hmem (mem_delimiters_of_isBlank (by simpa using hblank))
  · rintro rfl
    exact hmem (by decide)

theorem bare_of_isFirst {c : Char} (h : isFirst c) (cs : List Char) : Bare (c :: cs) :=
  bare_of_isRaw (isRaw_of_isOther (isOther_of_isFirst h)) cs

theorem SpellsIdentifier.exists_cons {name : String} {cs : List Char}
    (h : SpellsIdentifier name cs) : ∃ c tail, cs = c :: tail ∧ isFirst c := by
  cases h with
  | plain h =>
    obtain ⟨c, tail, hcons, hc, _⟩ := exists_cons_of_isPlainIdentifier h
    exact ⟨c, tail, hcons, hc⟩
  | raw hne h => exact ⟨'r', _, rfl, by decide⟩

/-- No value begins like a comment or with white space. -/
theorem SpellsScalar.bare {value : Scalar} {cs : List Char} (h : SpellsScalar value cs)
    (rest : List Char) : Bare (cs ++ rest) := by
  cases h with
  | yes | no => exact bare_of_isRaw (by decide) _
  | @integer sign digits hsign hlead hdigits hgrouped =>
    cases digits with
    | nil => cases hlead
    | cons d ds =>
      have hd : d.isDigit := by simpa using hlead
      have hraw : isRaw d := isRaw_of_isOther (by simp [isOther, Char.isAlphanum, hd])
      rcases hsign with rfl | rfl | rfl
      · exact bare_of_isRaw hraw _
      · exact bare_of_isRaw (by decide) _
      · exact bare_of_isRaw (by decide) _
  | text h => exact bare_cons (by decide) _
  | rawText h => exact bare_of_isRaw (by decide) _

/-- Layout and a delimiter behind it both end a token. -/
theorem Layout.delimited {cs : List Char} (h : Layout cs) {c : Char} (hc : c ∈ delimiters)
    (rest : List Char) : Delimited (cs ++ c :: rest) := by
  cases h with
  | nil => exact ⟨c, rest, rfl, hc⟩
  | blank hd h => exact ⟨_, _, rfl, mem_delimiters_of_isBlank hd⟩
  | lineComment htext h => exact ⟨'/', _, rfl, by decide⟩
  | blockComment hcomment h => exact ⟨'/', _, rfl, by decide⟩

/-! The punctuation of a record -/

section

variable {layout before rest : List Char}

theorem bare_close (rest : List Char) : Bare (')' :: rest) :=
  bare_cons (by decide) rest

/-- The comma is read with the layout on both sides. -/
theorem reads_comma (hlayout : Layout layout) (hbefore : Layout before) (hrest : Bare rest) :
    Reads comma (layout ++ ',' :: (before ++ rest)) true rest :=
  (hlayout.reads_skipBlanks (bare_cons (by decide) _)).bind ((reads_consume_char rfl _).bind
    ((hbefore.reads_skipBlanks hrest).bind (reads_pure true rest)))

theorem reads_comma_close (hlayout : Layout layout) (rest : List Char) :
    Reads comma (layout ++ ')' :: rest) false (')' :: rest) :=
  (hlayout.reads_skipBlanks (bare_close rest)).bind
    ((reads_consume_char_of_ne (c := ',') rfl (by simp)).bind (reads_pure false _))

theorem reads_hasElement {c : Char} (hlayout : Layout layout) (hc : isFirst c)
    (rest : List Char) : Reads (hasElement ')' true) (layout ++ c :: rest) true (c :: rest) := by
  have hne : c ≠ ')' := by
    rintro rfl
    exact absurd hc (by decide)
  refine (hlayout.reads_skipBlanks (bare_of_isFirst hc rest)).bind
    ((reads_peekOrEnd c rest).bind ?_)
  simpa [hne] using reads_pure true (c :: rest)

/-- A comma before the closing bracket is no promise of an element. -/
theorem reads_hasElement_close (hlayout : Layout layout) (hadComma : Bool) (rest : List Char) :
    Reads (hasElement ')' hadComma) (layout ++ ')' :: rest) false (')' :: rest) := by
  refine (hlayout.reads_skipBlanks (bare_close rest)).bind ((reads_peekOrEnd ')' rest).bind ?_)
  cases hadComma <;> exact reads_pure false (')' :: rest)

end

theorem reads_bool {b : Bool} {cs : List Char} (h : SpellsScalar (.flag b) cs)
    (rest : List Char) : Reads bool (cs ++ rest) b rest := by
  cases h with
  | yes => exact (reads_consume rfl rest).bind (reads_pure true rest)
  | no =>
    have hyes : "true".toList.isPrefixOf (['f', 'a', 'l', 's', 'e'] ++ rest) = false := rfl
    exact (reads_consume_of_not hyes).bind
      ((reads_consume rfl rest).bind (reads_pure false rest))

theorem reads_attributes {text : List Char} (h : text.head? ≠ some '#') (fuel : Nat) :
    Reads (attributes (fuel + 1) false) text false text := by
  refine (reads_peek text).bind ?_
  rw [if_neg h]
  exact reads_pure false text

end SceneScript.Ron
