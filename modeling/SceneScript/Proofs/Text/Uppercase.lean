import SceneScript.Text.Uppercase

/-!
What upper-casing keeps out of a text: its result has no lower-case letter of the ASCII range, and
no line feed that was not there before. Both are read off the two tables; between the tables, a
code point that neither of them mentions is no such letter and stays as it is.
-/
namespace SceneScript.Text

/-- No code point of the run is moved into the range from `low` to `high`. -/
def CaseRun.Avoids (low high : Nat) (run : CaseRun) : Prop :=
  run.last + run.shift < low ∨ high < run.first + run.shift

instance (low high : Nat) (run : CaseRun) : Decidable (run.Avoids low high) :=
  inferInstanceAs (Decidable (_ ∨ _))

/-- A code point stays or is moved by the run that holds it. -/
theorem shiftedCase_eq_or {runs : List CaseRun} (n : Nat) :
    shiftedCase runs n = n ∨
      ∃ run ∈ runs, run.first ≤ n ∧ n ≤ run.last ∧ shiftedCase runs n = (n + run.shift).toNat := by
  induction runs with
  | nil => exact Or.inl rfl
  | cons run runs ih =>
    rw [shiftedCase]
    split
    · rename_i hlast
      split
      · rename_i hrun
        exact Or.inr ⟨run, List.mem_cons_self .., hrun.1, hlast, rfl⟩
      · exact Or.inl rfl
    · rcases ih with hsame | ⟨other, hmem, hother⟩
      · exact Or.inl hsame
      · exact Or.inr ⟨other, List.mem_cons_of_mem run hmem, hother⟩

/-- Only a code point that was in the range before, and stays as it is, is in it afterwards. -/
theorem shiftedCase_eq_self {runs : List CaseRun} {low high n : Nat} (hlow : 0 < low)
    (hruns : ∀ run ∈ runs, run.Avoids low high)
    (h : low ≤ shiftedCase runs n ∧ shiftedCase runs n ≤ high) : shiftedCase runs n = n := by
  rcases shiftedCase_eq_or n with hsame | ⟨run, hmem, hfirst, hlast, hshift⟩
  · exact hsame
  · have havoids := hruns run hmem
    unfold CaseRun.Avoids at havoids
    omega

/-- The first run of the table is the ASCII alphabet. -/
theorem shiftedCase_ascii {n : Nat} (hlow : 0x61 ≤ n) (hhigh : n ≤ 0x7A) :
    shiftedCase caseRuns n = n - 32 := by
  have hin : 0x61 ≤ n ∧ (n - 0x61) % 1 = 0 := by omega
  rw [caseRuns, shiftedCase, if_pos hhigh, if_pos hin]
  dsimp only
  omega

private theorem toNat_ofNat_eq_or (n : Nat) :
    (Char.ofNat n).toNat = n ∨ (Char.ofNat n).toNat = 0 := by
  by_cases h : n.isValidChar
  · exact Or.inl (by rw [Char.ofNat, dif_pos h]; rfl)
  · exact Or.inr (by rw [Char.ofNat, dif_neg h]; rfl)

/-- A character of the upper-case form comes from one of the two tables. -/
theorem mem_upperChar {c d : Char} (h : d ∈ upperChar c) :
    d = Char.ofNat (shiftedCase caseRuns c.toNat) ∨
      ∃ entry ∈ expansions, ∃ code ∈ entry.2, d = Char.ofNat code := by
  unfold upperChar at h
  split at h
  · rename_i codes hcodes
    obtain ⟨before, behind, heq, _⟩ := List.lookup_eq_some_iff.mp hcodes
    obtain ⟨code, hcode, rfl⟩ := List.mem_map.mp h
    exact Or.inr ⟨(c.toNat, codes), by rw [heq]; simp, code, hcode, rfl⟩
  · exact Or.inl (List.mem_singleton.mp h)

/-- The two ranges that upper-casing does not lead into. -/
private theorem runs_avoid :
    (∀ run ∈ caseRuns, run.Avoids 0x61 0x7A) ∧ ∀ run ∈ caseRuns, run.Avoids 10 10 := by
  decide +kernel

/-- No sequence that replaces a letter has a lower-case letter or a line feed in it. -/
private theorem expansions_avoid :
    ∀ entry ∈ expansions, ∀ code ∈ entry.2, (code < 0x61 ∨ 0x7A < code) ∧ code ≠ 10 := by
  decide +kernel

theorem not_isLower_of_mem_upperChar {c d : Char} (h : d ∈ upperChar c) : ¬ d.isLower := by
  have hlower : ¬ (0x61 ≤ d.toNat ∧ d.toNat ≤ 0x7A) := by
    rcases mem_upperChar h with rfl | ⟨entry, hentry, code, hcode, rfl⟩
    · rcases toNat_ofNat_eq_or (shiftedCase caseRuns c.toNat) with heq | heq
      · rw [heq]
        intro hrange
        have hsame := shiftedCase_eq_self (by decide) runs_avoid.1 hrange
        rw [hsame] at hrange
        have hascii := shiftedCase_ascii hrange.1 hrange.2
        omega
      · omega
    · have hcodes := (expansions_avoid entry hentry code hcode).1
      rcases toNat_ofNat_eq_or code with heq | heq <;> omega
  intro h
  have hparts : (decide ('a'.val ≤ d.val) && decide (d.val ≤ 'z'.val)) = true := h
  rw [Bool.and_eq_true, decide_eq_true_eq, decide_eq_true_eq] at hparts
  exact hlower hparts

theorem eq_lineFeed_of_mem_upperChar {c : Char} (h : '\n' ∈ upperChar c) : c = '\n' := by
  have hfeed : Char.toNat '\n' = 10 := rfl
  rcases mem_upperChar h with hd | ⟨entry, hentry, code, hcode, hd⟩
  · rw [hd] at hfeed
    rcases toNat_ofNat_eq_or (shiftedCase caseRuns c.toNat) with heq | heq
    · have hrange : 10 ≤ shiftedCase caseRuns c.toNat ∧ shiftedCase caseRuns c.toNat ≤ 10 := by
        omega
      have hsame := shiftedCase_eq_self (by decide) runs_avoid.2 hrange
      rw [hd, hsame, Char.ofNat_toNat]
    · omega
  · have hcodes := (expansions_avoid entry hentry code hcode).2
    rw [hd] at hfeed
    rcases toNat_ofNat_eq_or code with heq | heq <;> omega

/-- No lower-case letter of the basic alphabet is left. -/
theorem not_isLower_of_mem_uppercase {s : String} {c : Char} (h : c ∈ (uppercase s).toList) :
    ¬ c.isLower := by
  rw [uppercase, String.toList_ofList] at h
  obtain ⟨d, _, hc⟩ := List.mem_flatMap.mp h
  exact not_isLower_of_mem_upperChar hc

theorem lineFeed_mem_of_mem_uppercase {s : String} (h : '\n' ∈ (uppercase s).toList) :
    '\n' ∈ s.toList := by
  rw [uppercase, String.toList_ofList] at h
  obtain ⟨d, hd, hfeed⟩ := List.mem_flatMap.mp h
  rwa [eq_lineFeed_of_mem_upperChar hfeed] at hd

end SceneScript.Text
