import Mathlib.Data.List.TakeWhile
import SceneScript.Proofs.Ron.Identifier
import SceneScript.Proofs.Text.Digits

/-!
Integers are read whole. One that does not fit is read again as a decimal number, so that digits
without underscores are always passed over, however many there are.
-/
namespace SceneScript.Ron

theorem isIntegerChar_of_digit {c : Char} (h : c.isDigit ∨ c = '_') : isIntegerChar c := by
  rcases h with h | rfl
  · simp [isIntegerChar, Text.hexValue_of_isDigit h]
  · rfl

theorem isFloatChar_of_digit {c : Char} (h : c.isDigit ∨ c = '_') : isFloatChar c := by
  rcases h with h | rfl
  · simp [isFloatChar, h]
  · rfl

theorem le_numeralFrom (n : Nat) (digits : List Char) : n ≤ numeralFrom n digits := by
  induction digits generalizing n with
  | nil => exact Nat.le_refl n
  | cons c digits ih =>
    refine Nat.le_trans ?_ (ih _)
    dsimp only
    split <;> omega

/-- An integer that stays below the bound is taken as it is. -/
theorem integerValue_of_le {bound : Nat} {digits : List Char}
    (hdigits : ∀ c ∈ digits, c.isDigit ∨ c = '_') {n : Nat} (h : numeralFrom n digits ≤ bound) :
    integerValue 10 bound n digits = .ok (numeralFrom n digits) := by
  induction digits generalizing n with
  | nil => rfl
  | cons c digits ih =>
    obtain ⟨hc, hdigits⟩ := List.forall_mem_cons.mp hdigits
    by_cases hgroup : c = '_'
    · have hskip : numeralFrom n (c :: digits) = numeralFrom n digits := by
        simp [numeralFrom, hgroup]
      rw [hskip] at h ⊢
      rw [integerValue, if_pos hgroup, ih hdigits h]
    · have hdigit : c.isDigit := hc.resolve_right hgroup
      have hstep : numeralFrom n (c :: digits) =
          numeralFrom (n * 10 + Text.digitValue c) digits := by
        simp [numeralFrom, hgroup]
      rw [hstep] at h ⊢
      have hle := Nat.le_trans (le_numeralFrom (n * 10 + Text.digitValue c) digits) h
      have hten := Text.digitValue_lt_of_isDigit hdigit
      rw [integerValue, if_neg hgroup, if_neg (by omega), Text.hexValue_of_isDigit hdigit]
      dsimp only
      rw [if_neg (by omega), if_neg (by omega), ih hdigits h]

/-- Only a letter in the second place names another base than ten. -/
theorem baseOf_eq_ten {cs : List Char} (h : ∀ c ∈ cs.tail.head?, c ≠ 'x' ∧ c ≠ 'b' ∧ c ≠ 'o') :
    baseOf cs = 10 := by
  unfold baseOf
  split
  · exact absurd rfl (h _ rfl).1
  · exact absurd rfl (h _ rfl).2.1
  · exact absurd rfl (h _ rfl).2.2
  · rfl

section

variable {d : Char} {ds rest : List Char}

theorem takeWhile_isIntegerChar (hd : d.isDigit) (hds : ∀ c ∈ ds, c.isDigit ∨ c = '_')
    (hrest : Delimited rest) : (d :: ds ++ rest).takeWhile isIntegerChar = d :: ds := by
  apply takeWhile_append
  · exact List.forall_mem_cons.mpr ⟨isIntegerChar_of_digit (.inl hd),
      fun c hc => isIntegerChar_of_digit (hds c hc)⟩
  · exact fun c hc => (not_mem_of_mem_delimiters (hrest.mem_delimiters c hc)).2.2.1

/-- An integer of the grammar from its first digit on is read whole, unless it is too large. -/
theorem integer_append (hd : d.isDigit) (hds : ∀ c ∈ ds, c.isDigit ∨ c = '_')
    (hrest : Delimited rest) (bound : Nat) (p : Text.Position) :
    (∃ q, integer bound ⟨d :: ds ++ rest, p⟩ = .ok () ⟨rest, q⟩) ∨
      bound < numeralFrom 0 (d :: ds) ∧
        ∃ fault q, integer bound ⟨d :: ds ++ rest, p⟩ = .error fault ⟨rest, q⟩ := by
  have hbase : baseOf (d :: ds ++ rest) = 10 := by
    apply baseOf_eq_ten
    cases ds with
    | nil =>
      intro c hc
      have hraw := hrest.not_isRaw c hc
      refine ⟨?_, ?_, ?_⟩ <;> rintro rfl <;> exact absurd hraw (by decide)
    | cons e ds =>
      intro c hc
      obtain rfl : e = c := Option.some.inj hc
      rcases hds e List.mem_cons_self with he | rfl
      · exact ⟨Text.ne_of_isDigit he (by decide), Text.ne_of_isDigit he (by decide),
          Text.ne_of_isDigit he (by decide)⟩
      · decide
  have htake := takeWhile_isIntegerChar hd hds hrest
  have hgroup : d ≠ '_' := Text.ne_of_isDigit hd (by decide)
  have hadvance := advance_append (d :: ds) rest p
  rw [List.length_cons] at hadvance
  cases hvalue : integerValue 10 bound 0 (d :: ds) with
  | ok n =>
    refine .inl ⟨(d :: ds).foldl Cursor.behind p, ?_⟩
    simp only [integer, hbase, if_true, htake, if_neg hgroup, hadvance, hvalue]
  | error fault =>
    refine .inr ⟨?_, fault, (d :: ds).foldl Cursor.behind p, ?_⟩
    · by_contra hle
      rw [integerValue_of_le (List.forall_mem_cons.mpr ⟨.inl hd, hds⟩) (Nat.le_of_not_lt hle)]
        at hvalue
      cases hvalue
    · simp only [integer, hbase, if_true, htake, if_neg hgroup, hadvance, hvalue]

theorem unsigned_append {sign : List Char} (hsign : IsSign sign) (hd : d.isDigit)
    (tail : List Char) : unsigned (sign ++ d :: tail) = d :: tail := by
  have hplus : d ≠ '+' := Text.ne_of_isDigit hd (by decide)
  have hminus : d ≠ '-' := Text.ne_of_isDigit hd (by decide)
  rcases hsign with rfl | rfl | rfl
  · unfold unsigned
    split
    · rename_i h
      exact absurd (List.cons.inj h).1 hplus
    · rename_i h
      exact absurd (List.cons.inj h).1 hminus
    · rfl
  · rfl
  · rfl

/-- Behind its sign an integer has at least 63 bits. -/
theorem signedInteger_append {sign : List Char} (hsign : IsSign sign) (hd : d.isDigit)
    (tail : List Char) (p : Text.Position) :
    ∃ bound q, Nat.pow 2 63 - 1 ≤ bound ∧
      signedInteger ⟨sign ++ d :: tail, p⟩ = integer bound ⟨d :: tail, q⟩ := by
  have hplus : d ≠ '+' := Text.ne_of_isDigit hd (by decide)
  have hminus : d ≠ '-' := Text.ne_of_isDigit hd (by decide)
  rcases hsign with rfl | rfl | rfl
  · refine ⟨Nat.pow 2 64 - 1, p, by decide, ?_⟩
    unfold signedInteger
    dsimp only [List.nil_append]
    split
    · rename_i h
      exact absurd (List.cons.inj h).1 hplus
    · rename_i h
      exact absurd (List.cons.inj h).1 hminus
    · rfl
  · exact ⟨Nat.pow 2 63 - 1, Cursor.behind p '+', Nat.le_refl _, rfl⟩
  · exact ⟨Nat.pow 2 63, Cursor.behind p '-', by decide, rfl⟩

theorem IsSign.length_le_one {sign : List Char} (h : IsSign sign) : sign.length ≤ 1 := by
  rcases h with rfl | rfl | rfl <;> decide

def hasNoDigit (word : List Char) : Bool := 1 < word.length && word.all fun c => !c.isDigit

theorem isPrefixOf_digit {word sign : List Char} (hsign : IsSign sign) (hd : d.isDigit)
    (tail : List Char) (hword : hasNoDigit word) :
    word.isPrefixOf (sign ++ d :: tail) = false := by
  simp only [hasNoDigit, Bool.and_eq_true, decide_eq_true_eq, List.all_eq_true,
    Bool.not_eq_true'] at hword
  by_contra h
  have hbegins := List.isPrefixOf_iff_prefix.mp (Bool.not_eq_false _ ▸ h)
  have hlength : sign.length < word.length := Nat.lt_of_le_of_lt hsign.length_le_one hword.1
  have hsame : word[sign.length] = d := by
    rw [hbegins.getElem hlength]
    simp
  have hd' := hword.2 _ (List.getElem_mem hlength)
  rw [hsame, hd] at hd'
  cases hd'

/-- No number that begins with a digit is one of the named ones. -/
theorem find?_specialFloats {sign : List Char} (hsign : IsSign sign) (hd : d.isDigit)
    (tail : List Char) :
    (specialFloats.find? fun name => startsWithWord name.toList (sign ++ d :: tail)) = none := by
  have hnames : specialFloats.all fun name => hasNoDigit name.toList := by decide +kernel
  rw [List.find?_eq_none]
  intro name hname
  simp [startsWithWord, isPrefixOf_digit hsign hd tail (List.all_eq_true.mp hnames name hname)]

/-- Digits alone are a decimal number too, so an integer passes this check. -/
theorem isDecimal_append {sign : List Char} (hsign : IsSign sign) (hd : d.isDigit)
    (hds : ∀ c ∈ ds, c.isDigit) : isDecimal (sign ++ d :: ds) := by
  have hall : ∀ c ∈ d :: ds, c.isDigit := List.forall_mem_cons.mpr ⟨hd, hds⟩
  have htake : (d :: ds).takeWhile Char.isDigit = d :: ds := List.takeWhile_eq_self_iff.mpr hall
  have hdrop : (d :: ds).dropWhile Char.isDigit = [] := List.dropWhile_eq_nil_iff.mpr hall
  have hunsigned := unsigned_append hsign hd ds
  unfold unsigned at hunsigned
  simp only [isDecimal, hunsigned, htake, hdrop]
  rfl

end

section

variable {sign : List Char} {d : Char} {ds rest : List Char}

theorem takeWhile_isFloatChar (hsign : IsSign sign) (hd : d.isDigit)
    (hds : ∀ c ∈ ds, c.isDigit ∨ c = '_') (hrest : Delimited rest) :
    (sign ++ d :: ds ++ rest).takeWhile isFloatChar = sign ++ d :: ds := by
  apply takeWhile_append
  · intro c hc
    rcases List.mem_append.mp hc with hc | hc
    · rcases hsign with rfl | rfl | rfl
      · cases hc
      · rw [List.mem_singleton.mp hc]
        decide
      · rw [List.mem_singleton.mp hc]
        decide
    · rcases List.mem_cons.mp hc with rfl | hc
      · exact isFloatChar_of_digit (.inl hd)
      · exact isFloatChar_of_digit (hds c hc)
  · exact fun c hc => (not_mem_of_mem_delimiters (hrest.mem_delimiters c hc)).2.1

/-- Digits alone are a decimal number. -/
theorem reads_float (hsign : IsSign sign) (hd : d.isDigit) (hds : ∀ c ∈ ds, c.isDigit)
    (hrest : Delimited rest) : Reads float (sign ++ d :: ds ++ rest) () rest := by
  have hspecial := find?_specialFloats hsign hd (ds ++ rest)
  have htake := takeWhile_isFloatChar hsign hd (fun c hc => .inl (hds c hc)) hrest
  have hgroup : (sign ++ d :: ds).contains '_' = false := by
    rw [List.contains_eq_mem, decide_eq_false_iff_not, List.mem_append, List.mem_cons]
    rintro (h | h | h)
    · rcases hsign with rfl | rfl | rfl <;> exact absurd h (by decide)
    · exact Text.ne_of_isDigit hd (by decide) h.symm
    · exact absurd (hds '_' h) (by decide)
  have happend : sign ++ d :: ds ++ rest = sign ++ d :: (ds ++ rest) := by simp
  intro p
  refine ⟨(sign ++ d :: ds).foldl Cursor.behind p, ?_⟩
  rw [← advance_append]
  unfold float
  dsimp only
  rw [htake, hgroup, if_neg Bool.false_ne_true, if_pos (isDecimal_append hsign hd hds), happend,
    hspecial]

/-- A number of the grammar is passed over, as an integer if it fits. -/
theorem reads_number (hsign : IsSign sign) (hd : d.isDigit) (hds : ∀ c ∈ ds, c.isDigit ∨ c = '_')
    (hgrouped : '_' ∈ d :: ds → numeralFrom 0 (d :: ds) < Nat.pow 2 63) (hrest : Delimited rest) :
    Reads number (sign ++ d :: ds ++ rest) () rest := by
  have hunsigned : unsigned (sign ++ d :: ds ++ rest) = d :: ds ++ rest := by
    simpa using unsigned_append hsign hd (ds ++ rest)
  have hfloat : looksLikeFloat (sign ++ d :: ds ++ rest) = false := by
    have hinteger := takeWhile_isIntegerChar hd hds hrest
    have hdecimal := takeWhile_isFloatChar (.inl rfl) hd hds hrest
    rw [List.nil_append] at hdecimal
    rw [looksLikeFloat, hunsigned, hinteger, hdecimal]
    exact decide_eq_false (Nat.lt_irrefl _)
  intro p
  obtain ⟨bound, q, hbound, hsigned⟩ := signedInteger_append hsign hd (ds ++ rest) p
  have hinteger := integer_append hd hds hrest bound q
  have happend : sign ++ d :: ds ++ rest = sign ++ d :: (ds ++ rest) := by simp
  rw [List.cons_append] at hinteger
  unfold number
  dsimp only
  rw [hfloat, if_neg Bool.false_ne_true, happend, hsigned]
  rcases hinteger with ⟨r, hinteger⟩ | ⟨hlarge, fault, r, hinteger⟩
  · exact ⟨r, by rw [hinteger]⟩
  · rw [hinteger]
    -- Grouped digits always fit, so there are digits only.
    have hgroup : '_' ∉ d :: ds := by
      intro hmem
      have hfits := hgrouped hmem
      omega
    have hdigits : ∀ c ∈ ds, c.isDigit := by
      intro c hc
      refine (hds c hc).resolve_right ?_
      rintro rfl
      exact hgroup (List.mem_cons_of_mem d hc)
    have hread := reads_float hsign hd hdigits hrest r
    rwa [happend] at hread

end

end SceneScript.Ron
