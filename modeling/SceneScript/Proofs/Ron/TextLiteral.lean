import SceneScript.Proofs.Ron.Reads
import SceneScript.Ron.TextLiteral

/-!
Strings without escapes end at the first quote, and raw strings at the first quote with enough
number signs behind it.
-/
namespace SceneScript.Ron

theorem reads_string {cs : List Char} (h : ∀ c ∈ cs, c ≠ '"' ∧ c ≠ '\\') (rest : List Char) :
    Reads string ('"' :: cs ++ '"' :: rest) () rest := by
  have htake : (cs ++ '"' :: rest).takeWhile (fun c => c ≠ '"' && c ≠ '\\') = cs := by
    apply takeWhile_append
    · intro c hc
      simpa using h c hc
    · intro c hc
      obtain rfl : '"' = c := Option.some.inj hc
      rfl
  intro p
  have hadvance := advance_append (cs ++ ['"']) rest (Cursor.behind p '"')
  rw [List.append_assoc, List.length_append] at hadvance
  refine ⟨_, Eq.trans ?_ (congrArg (EStateM.Result.ok ()) hadvance)⟩
  change stringRest _ ⟨cs ++ '"' :: rest, Cursor.behind p '"'⟩ = _
  unfold stringRest
  dsimp only
  rw [htake, List.drop_left]
  rfl

/-- What ends a raw string does not begin inside it, and cannot begin there and end outside. -/
theorem not_prefix_of_not_infix {signs : Nat} {cs : List Char} (hne : cs ≠ [])
    (h : ¬ '"' :: List.replicate signs '#' <:+: cs) (tail : List Char) :
    ¬ '"' :: List.replicate signs '#' <+: cs ++ '"' :: tail := by
  intro hbegins
  rcases Nat.lt_or_ge cs.length (signs + 1) with hlength | hlength
  · obtain ⟨c, cs, rfl⟩ := List.exists_cons_of_ne_nil hne
    have hinside : (c :: cs).length < ('"' :: List.replicate signs '#').length := by
      simpa using hlength
    have hsame := hbegins.getElem hinside
    simp at hsame
  · have hshort : ('"' :: List.replicate signs '#').length ≤ cs.length := by simpa using hlength
    exact h (List.prefix_of_prefix_length_le hbegins (List.prefix_append cs _) hshort).isInfix

theorem indexOf_ending {signs : Nat} {cs : List Char}
    (h : ¬ '"' :: List.replicate signs '#' <:+: cs) (rest : List Char) (i : Nat) :
    indexOf ('"' :: List.replicate signs '#') i
      (cs ++ '"' :: (List.replicate signs '#' ++ rest)) = some (i + cs.length) := by
  induction cs generalizing i with
  | nil =>
    have hbegins := List.isPrefixOf_iff_prefix.mpr
      (List.prefix_append ('"' :: List.replicate signs '#') rest)
    rw [List.nil_append, indexOf]
    rw [List.cons_append] at hbegins
    rw [if_pos hbegins]
    rfl
  | cons c cs ih =>
    have hbegins := not_prefix_of_not_infix (List.cons_ne_nil c cs) h
      (List.replicate signs '#' ++ rest)
    rw [← List.isPrefixOf_iff_prefix] at hbegins
    have hwithin : ¬ '"' :: List.replicate signs '#' <:+: cs :=
      fun hwithin => h (hwithin.trans (List.suffix_cons c cs).isInfix)
    rw [List.cons_append, indexOf, ← List.cons_append, if_neg hbegins, ih hwithin]
    simp [Nat.add_assoc, Nat.add_comm 1]

/-- A raw string ends at the first quote with enough signs behind it. -/
theorem reads_rawString {signs : Nat} {cs : List Char}
    (h : ¬ '"' :: List.replicate signs '#' <:+: cs) (rest : List Char) :
    Reads rawString (List.replicate signs '#' ++
      '"' :: (cs ++ '"' :: (List.replicate signs '#' ++ rest))) () rest := by
  have htake : (List.replicate signs '#' ++
      '"' :: (cs ++ '"' :: (List.replicate signs '#' ++ rest))).takeWhile (· = '#') =
        List.replicate signs '#' := by
    apply takeWhile_append
    · intro c hc
      simpa using List.eq_of_mem_replicate hc
    · intro c hc
      obtain rfl : '"' = c := Option.some.inj hc
      rfl
  intro p
  let q := (List.replicate signs '#' ++ ['"']).foldl Cursor.behind p
  have hend := advance_append (cs ++ '"' :: List.replicate signs '#') rest q
  rw [List.append_assoc, List.length_append, List.length_cons, ← Nat.add_assoc] at hend
  refine ⟨_, Eq.trans ?_ (congrArg (EStateM.Result.ok ()) hend)⟩
  have hopen : Cursor.advance ⟨'"' :: (cs ++ '"' :: (List.replicate signs '#' ++ rest)),
      (List.replicate signs '#').foldl Cursor.behind p⟩ 1 =
        ⟨cs ++ '"' :: (List.replicate signs '#' ++ rest), q⟩ := by
    simp [Cursor.advance, q]
  unfold rawString
  dsimp only
  rw [htake, advance_append]
  dsimp only
  rw [hopen]
  dsimp only
  rw [indexOf_ending h rest 0, Nat.zero_add]
  rfl

theorem reads_string_raw {signs : Nat} {cs : List Char}
    (h : ¬ '"' :: List.replicate signs '#' <:+: cs) (rest : List Char) :
    Reads string ('r' :: (List.replicate signs '#' ++
      '"' :: (cs ++ '"' :: (List.replicate signs '#' ++ rest)))) () rest :=
  fun p => reads_rawString h rest (Cursor.behind p 'r')

end SceneScript.Ron
