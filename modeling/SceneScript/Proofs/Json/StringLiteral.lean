import SceneScript.Proofs.Json.Success

/-!
String literals against the grammar. Each spelling of a character takes the reader from outside
any escape to outside any escape and adds that character; whatever the writer puts down for a
string is one of its spellings.
-/
namespace SceneScript.Json

open Scan

private theorem shortEscape_of_mem {letter c : Char} (h : (letter, c) ∈ shortForms) :
    letter ≠ 'u' ∧ shortEscape letter = some c := by
  simp only [shortForms, List.mem_cons, Prod.mk.injEq, List.not_mem_nil, or_false] at h
  rcases h with ⟨rfl, rfl⟩ | ⟨rfl, rfl⟩ | ⟨rfl, rfl⟩ | ⟨rfl, rfl⟩ | ⟨rfl, rfl⟩ | ⟨rfl, rfl⟩ |
    ⟨rfl, rfl⟩ | ⟨rfl, rfl⟩ <;> exact ⟨by decide, by decide⟩

private theorem readWithin_digits_char {value : Nat} {digits : List Char}
    (h : SpellsUnit value digits) {leading : Option Nat} {d : Char}
    (hchar : unit16 value leading = .char d) (acc rest : List Char) :
    readWithin (.digits 4 0 leading) acc (digits ++ rest) =
      readWithin .plain (d :: acc) rest := by
  obtain ⟨ha, hb, hc, hd⟩ := h
  simp [readWithin, ha, hb, hc, hd, hchar]

theorem readWithin_digits_leading {value : Nat} {digits : List Char}
    (h : SpellsUnit value digits) {leading : Option Nat} {half : Nat}
    (hhalf : unit16 value leading = .leading half) (acc rest : List Char) :
    readWithin (.digits 4 0 leading) acc (digits ++ rest) =
      readWithin (.afterLeading half) acc rest := by
  obtain ⟨ha, hb, hc, hd⟩ := h
  simp [readWithin, ha, hb, hc, hd, hhalf]

/-- A spelled character is read as that character. -/
theorem readWithin_spellsChar {c : Char} {cs : List Char} (h : SpellsChar c cs)
    (acc rest : List Char) :
    readWithin .plain acc (cs ++ rest) = readWithin .plain (c :: acc) rest := by
  cases h with
  | plain hcontrol hquote hslash =>
    have hlow : ¬ c.toNat < 32 := by omega
    simp [readWithin, hquote, hslash, hlow]
  | @short letter _ hmem =>
    obtain ⟨hletter, hescape⟩ := shortEscape_of_mem hmem
    simp [readWithin, hletter, hescape]
  | @unit value digits hunit hleading htrailing =>
    have hchar : unit16 value none = .char (Char.ofNat value) := by
      simp only [IsLeading, IsTrailing] at hleading htrailing
      simp [unit16, hleading, htrailing]
    simpa [readWithin] using readWithin_digits_char hunit hchar acc rest
  | @pair leading trailing first second hfirst hleading hsecond htrailing =>
    have hno : ¬ (0xDC00 ≤ leading ∧ leading ≤ 0xDFFF) := by
      simp only [IsLeading] at hleading
      omega
    have hhalf : unit16 leading none = .leading leading := by
      simp only [IsLeading] at hleading
      rw [unit16, if_neg hno, if_pos hleading]
    have hboth : unit16 trailing (some leading) =
        .char (Char.ofNat ((leading - 0xD800) * 0x400 + (trailing - 0xDC00) + 0x10000)) := by
      simp only [IsTrailing] at htrailing
      rw [unit16, if_pos htrailing]
    have hread := readWithin_digits_leading hfirst hhalf acc ('\\' :: 'u' :: second ++ rest)
    have hread' := readWithin_digits_char hsecond hboth acc rest
    simpa [readWithin, hread'] using hread

/-- All spellings of some characters are read as these characters. -/
theorem readWithin_spellsChars {cs text : List Char} (h : SpellsChars cs text)
    (acc rest : List Char) :
    readWithin .plain acc (text ++ '"' :: rest) =
      .ok (String.ofList (acc.reverse ++ cs)) rest := by
  induction h generalizing acc with
  | nil => simp [readWithin]
  | cons hc _ ih =>
    rw [List.append_assoc, readWithin_spellsChar hc, ih]
    simp

/-- A spelled string is read, from behind its opening quote, as that string. -/
theorem success_readString {s : String} {inside : List Char} (h : SpellsChars s.toList inside)
    (rest : List Char) : readString.success (inside ++ '"' :: rest) = some (s, rest) := by
  have hread := readWithin_spellsChars h [] rest
  simp only [List.reverse_nil, List.nil_append, String.ofList_toList] at hread
  exact success_of_eq_ok hread

private theorem skipWithin_digits {value : Nat} {digits : List Char} (h : SpellsUnit value digits)
    (rest : List Char) :
    skipWithin (.digits 4 0 none) (digits ++ rest) = skipWithin .plain rest := by
  obtain ⟨ha, hb, hc, hd⟩ := h
  simp [skipWithin, ha, hb, hc, hd]

/-- However a character is spelled, it is passed over as one. -/
theorem skipWithin_spellsChar {c : Char} {cs : List Char} (h : SpellsChar c cs)
    (rest : List Char) : skipWithin .plain (cs ++ rest) = skipWithin .plain rest := by
  cases h with
  | plain hcontrol hquote hslash =>
    have hlow : ¬ c.toNat < 32 := by omega
    simp [skipWithin, hquote, hslash, hlow]
  | @short letter _ hmem =>
    obtain ⟨hletter, hescape⟩ := shortEscape_of_mem hmem
    simp [skipWithin, hletter, hescape]
  | unit hunit => simpa [skipWithin] using skipWithin_digits hunit rest
  | @pair leading trailing first second hfirst hleading hsecond htrailing =>
    have hskip := skipWithin_digits hfirst ('\\' :: 'u' :: second ++ rest)
    have hskip' := skipWithin_digits hsecond rest
    simpa [skipWithin, hskip'] using hskip

theorem success_skipString {cs inside : List Char} (h : SpellsChars cs inside)
    (rest : List Char) : skipString.success (inside ++ '"' :: rest) = some ((), rest) := by
  apply success_of_eq_ok
  unfold skipString
  induction h with
  | nil => simp [skipWithin]
  | cons hc _ ih => rw [List.append_assoc, skipWithin_spellsChar hc, ih]

/-! What the writer puts down -/

private theorem hexValue_hexDigit_of_lt {n : Nat} (h : n < 16) :
    Text.hexValue (Text.hexDigit n) = some n :=
  Text.hexValue_hexDigit ⟨n, h⟩

private theorem spellsChar_of_short {c d letter : Char} (h : c = d)
    (hmem : (letter, d) ∈ shortForms) : SpellsChar c ['\\', letter] := by
  rw [h]
  exact .short hmem

/-- A character is written in one of its spellings. -/
theorem spellsChar_escapedChar (c : Char) : SpellsChar c (escapedChar c) := by
  unfold escapedChar
  split
  · rename_i h
    exact spellsChar_of_short h (by decide)
  split
  · rename_i h
    exact spellsChar_of_short h (by decide)
  split
  · rename_i h
    exact spellsChar_of_short h (by decide)
  split
  · rename_i h
    exact spellsChar_of_short h (by decide)
  split
  · rename_i h
    exact spellsChar_of_short h (by decide)
  split
  · rename_i h
    have hc : c = Char.ofNat 8 := by rw [← h, Char.ofNat_toNat]
    exact spellsChar_of_short hc (by decide)
  split
  · rename_i h
    have hc : c = Char.ofNat 12 := by rw [← h, Char.ofNat_toNat]
    exact spellsChar_of_short hc (by decide)
  split
  · rename_i h
    -- Two zeros stand before the digits of a control character.
    have hzero : Text.hexValue (Text.hexDigit 0) = some 0 := hexValue_hexDigit_of_lt (by omega)
    have hhigh : Text.hexValue (Text.hexDigit (c.toNat / 16)) = some (c.toNat / 16) :=
      hexValue_hexDigit_of_lt (by omega)
    have hlow : Text.hexValue (Text.hexDigit (c.toNat % 16)) = some (c.toNat % 16) :=
      hexValue_hexDigit_of_lt (by omega)
    have hunit := SpellsUnit.digits hzero hzero hhigh hlow
    have hvalue : ((0 * 16 + 0) * 16 + c.toNat / 16) * 16 + c.toNat % 16 = c.toNat := by omega
    rw [hvalue] at hunit
    have hleading : ¬ IsLeading c.toNat := by
      unfold IsLeading
      omega
    have htrailing : ¬ IsTrailing c.toNat := by
      unfold IsTrailing
      omega
    have hspelled := SpellsChar.unit hunit hleading htrailing
    rwa [Char.ofNat_toNat] at hspelled
  · rename_i hquote hslash _ _ _ _ _ hcontrol
    exact .plain (by omega) hquote hslash

/-- Escaping gives one of the spellings of each character. -/
theorem spellsChars_flatMap_escapedChar (cs : List Char) :
    SpellsChars cs (cs.flatMap escapedChar) := by
  induction cs with
  | nil => exact .nil
  | cons c cs ih => exact .cons (spellsChar_escapedChar c) ih

theorem spellsString_stringLiteral (s : String) : SpellsString s (stringLiteral s) :=
  ⟨s.toList.flatMap escapedChar, spellsChars_flatMap_escapedChar s.toList, rfl⟩

end SceneScript.Json
