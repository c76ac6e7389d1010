import SceneScript.Proofs.Ron.Reads
import SceneScript.Ron.NumberLiteral

/-!
Identifiers are read whole, and what stands behind them is left. Behind a token stands a character
that no token goes on with.
-/
namespace SceneScript.Ron

/-! What stands behind a token is no part of it -/

theorem not_mem_of_mem_delimiters {c : Char} (h : c ∈ delimiters) :
    isRaw c = false ∧ isFloatChar c = false ∧ isIntegerChar c = false ∧ c ≠ '"' ∧ c ≠ '#' := by
  simp only [delimiters, List.mem_cons, List.not_mem_nil, or_false] at h
  rcases h with rfl | rfl | rfl | rfl | rfl | rfl | rfl | rfl | rfl <;> decide

theorem isRaw_of_isOther {c : Char} (h : isOther c) : isRaw c := by
  simp [isRaw, h]

theorem Delimited.mem_delimiters {rest : List Char} (h : Delimited rest) :
    ∀ c ∈ rest.head?, c ∈ delimiters := by
  obtain ⟨d, ds, rfl, hd⟩ := h
  intro c hc
  obtain rfl : d = c := Option.some.inj hc
  exact hd

/-- An identifier cannot go on behind what ends a token. -/
theorem Delimited.not_isRaw {rest : List Char} (h : Delimited rest) :
    ∀ c ∈ rest.head?, isRaw c = false :=
  fun c hc => (not_mem_of_mem_delimiters (h.mem_delimiters c hc)).1

theorem Delimited.not_isOther {rest : List Char} (h : Delimited rest) :
    ∀ c ∈ rest.head?, isOther c = false := by
  intro c hc
  by_contra hother
  have hraw := isRaw_of_isOther (by simpa using hother)
  rw [h.not_isRaw c hc] at hraw
  cases hraw

/-! Identifiers -/

theorem exists_cons_of_isPlainIdentifier {cs : List Char} (h : isPlainIdentifier cs) :
    ∃ c tail, cs = c :: tail ∧ isFirst c ∧ ∀ d ∈ tail, isOther d := by
  cases cs with
  | nil => cases h
  | cons c tail => exact ⟨c, tail, rfl, by simpa [isPlainIdentifier] using h⟩

theorem isOther_of_isFirst {c : Char} (h : isFirst c) : isOther c := by
  simp only [isFirst, isOther, Bool.or_eq_true, Char.isAlphanum] at h ⊢
  tauto

theorem identifier_of_isFirst {c : Char} {tail : List Char} (p : Text.Position) (hc : isFirst c)
    (htail : ∃ d ds, tail = d :: ds ∧ d ≠ '"' ∧ d ≠ '#') :
    identifier ⟨c :: tail, p⟩ = plainIdentifier ⟨c :: tail, p⟩ := by
  obtain ⟨d, ds, rfl, hquote, hsign⟩ := htail
  unfold identifier
  dsimp only
  rw [if_pos hc]
  split
  · split
    · rename_i h
      cases h
    · rename_i h
      exact absurd (List.cons.inj h).1 hquote
    · rename_i h
      exact absurd (List.cons.inj h).1 hsign
    · rfl
  · rfl

theorem reads_plainIdentifier {cs rest : List Char} (h : ∀ c ∈ cs, isOther c)
    (hrest : Delimited rest) : Reads plainIdentifier (cs ++ rest) (String.ofList cs) rest := by
  intro p
  have hplain := takeWhile_append h hrest.not_isOther
  have hraw := takeWhile_append (fun c hc => isRaw_of_isOther (h c hc)) hrest.not_isRaw
  refine ⟨cs.foldl Cursor.behind p, ?_⟩
  simp [plainIdentifier, hplain, hraw, Cursor.advance]

theorem head_append_of_isOther {tail rest : List Char} (h : ∀ c ∈ tail, isOther c)
    (hrest : Delimited rest) : ∃ d ds, tail ++ rest = d :: ds ∧ d ≠ '"' ∧ d ≠ '#' := by
  cases tail with
  | nil =>
    obtain ⟨d, ds, rfl, hd⟩ := hrest
    obtain ⟨_, _, _, hquote, hsign⟩ := not_mem_of_mem_delimiters hd
    exact ⟨d, ds, rfl, hquote, hsign⟩
  | cons d tail =>
    have hd := h d List.mem_cons_self
    refine ⟨d, tail ++ rest, rfl, ?_, ?_⟩
    · rintro rfl
      exact absurd hd (by decide)
    · rintro rfl
      exact absurd hd (by decide)

theorem identifier_raw {behind : List Char} (p : Text.Position)
    (h : behind.head?.any isRaw = true) :
    identifier ⟨'r' :: '#' :: behind, p⟩ = .ok (String.ofList (behind.takeWhile isRaw))
      (Cursor.advance ⟨'r' :: '#' :: behind, p⟩ (2 + (behind.takeWhile isRaw).length)) := by
  simp only [identifier, h, if_true]
  rfl

/-- An identifier is read in both spellings. -/
theorem reads_identifier {name : String} {cs : List Char} (h : SpellsIdentifier name cs)
    {rest : List Char} (hrest : Delimited rest) : Reads identifier (cs ++ rest) name rest := by
  have hname : name = String.ofList name.toList := String.ofList_toList.symm
  cases h with
  | plain h =>
    obtain ⟨c, tail, hcons, hc, htail⟩ := exists_cons_of_isPlainIdentifier h
    have hall : ∀ d ∈ c :: tail, isOther d :=
      List.forall_mem_cons.mpr ⟨isOther_of_isFirst hc, htail⟩
    rw [hcons] at hname ⊢
    intro p
    rw [List.cons_append, identifier_of_isFirst p hc (head_append_of_isOther htail hrest), hname]
    exact reads_plainIdentifier hall hrest p
  | raw hne h =>
    intro p
    have hhead : (name.toList ++ rest).head?.any isRaw = true := by
      obtain ⟨c, tail, hcons⟩ := List.exists_cons_of_ne_nil hne
      rw [hcons] at h ⊢
      simpa using h c List.mem_cons_self
    have htake := takeWhile_append h hrest.not_isRaw
    refine ⟨('r' :: '#' :: name.toList).foldl Cursor.behind p, ?_⟩
    refine (identifier_raw p hhead).trans ?_
    rw [htake, ← hname]
    simp [Cursor.advance, Nat.add_comm 2]

theorem isFirst_of_isDigit {c : Char} (h : c.isDigit) : isFirst c = false := by
  have hdigits : ∀ n < 58, 48 ≤ n → isFirst (Char.ofNat n) = false := by decide
  have hbounds := Char.isDigit_iff_toNat.mp h
  have hfirst := hdigits c.toNat (Nat.lt_succ_of_le hbounds.2) hbounds.1
  rwa [Char.ofNat_toNat] at hfirst

/-- Nothing that starts with another character is an identifier. -/
theorem exists_refuses_identifier {c : Char} (hc : isFirst c = false) (tail : List Char) :
    ∃ fault, Refuses identifier (c :: tail) fault := by
  cases hraw : isRaw c with
  | false =>
    exact ⟨.expectedIdentifier, fun p => ⟨⟨c :: tail, p⟩, by simp [identifier, hc, hraw]⟩⟩
  | true =>
    refine ⟨.suggestRaw (String.ofList ((c :: tail).takeWhile isRaw)),
      fun p => ⟨⟨c :: tail, p⟩, ?_⟩⟩
    simp [identifier, hc, hraw]

/-- An `r` in front of a string starts no identifier. -/
theorem exists_refuses_identifier_raw (signs : Nat) (cs : List Char) :
    ∃ fault, Refuses identifier ('r' :: List.replicate signs '#' ++ '"' :: cs) fault := by
  refine ⟨.expectedIdentifier, fun p =>
    ⟨⟨'r' :: List.replicate signs '#' ++ '"' :: cs, p⟩, ?_⟩⟩
  -- Behind a number sign there is another one or the quote, neither of which can be raw.
  cases signs with
  | zero => rfl
  | succ signs => cases signs <;> rfl

end SceneScript.Ron
