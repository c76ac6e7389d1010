import SceneScript.Proofs.Json.StringLiteral

/-!
Texts that stop too early. What is left of a text when its end is missing is cut inside one of its
tokens or between two; the reader of the token notices, and no fault is found before that.
-/
namespace SceneScript.Json

def Cut (whole beginning : List Char) : Prop := ∃ rest, rest ≠ [] ∧ whole = beginning ++ rest

theorem not_cut_nil (cs : List Char) : ¬ Cut [] cs := by
  intro h
  obtain ⟨rest, hrest, heq⟩ := h
  exact hrest (List.append_eq_nil_iff.mp heq.symm).2

theorem cut_cons_iff {c : Char} {whole cs : List Char} :
    Cut (c :: whole) cs ↔ cs = [] ∨ ∃ tail, cs = c :: tail ∧ Cut whole tail := by
  constructor
  · intro h
    obtain ⟨rest, hrest, heq⟩ := h
    cases cs with
    | nil => exact Or.inl rfl
    | cons d tail =>
      obtain ⟨rfl, rfl⟩ := List.cons.inj heq
      exact Or.inr ⟨tail, rfl, rest, hrest, rfl⟩
  · intro h
    rcases h with rfl | ⟨tail, rfl, rest, hrest, rfl⟩
    · exact ⟨c :: whole, by simp, rfl⟩
    · exact ⟨rest, hrest, rfl⟩

/-- The cut goes through the first piece or through the second. -/
theorem cut_append_iff {first second cs : List Char} :
    Cut (first ++ second) cs ↔ Cut first cs ∨ ∃ tail, cs = first ++ tail ∧ Cut second tail := by
  induction first generalizing cs with
  | nil => simp [not_cut_nil]
  | cons c first ih =>
    simp only [List.cons_append, cut_cons_iff, ih]
    constructor
    · intro h
      rcases h with rfl | ⟨tail, rfl, hfirst | ⟨behind, rfl, hsecond⟩⟩
      · exact Or.inl (Or.inl rfl)
      · exact Or.inl (Or.inr ⟨tail, rfl, hfirst⟩)
      · exact Or.inr ⟨behind, rfl, hsecond⟩
    · intro h
      rcases h with (rfl | ⟨tail, rfl, hfirst⟩) | ⟨behind, rfl, hsecond⟩
      · exact Or.inl rfl
      · exact Or.inr ⟨tail, rfl, Or.inl hfirst⟩
      · exact Or.inr ⟨first ++ behind, rfl, Or.inr ⟨behind, rfl, hsecond⟩⟩

theorem Cut.allBlank {whole cs : List Char} (h : Cut whole cs) (hwhole : AllBlank whole) :
    AllBlank cs := by
  obtain ⟨rest, _, rfl⟩ := h
  exact fun c hc => hwhole c (List.mem_append_left rest hc)

/-- A cut of white space and of the character that ends it. -/
theorem Cut.allBlank_of_snoc {blanks cs : List Char} {c : Char} (h : Cut (blanks ++ [c]) cs)
    (hblanks : AllBlank blanks) : AllBlank cs := by
  rcases cut_append_iff.mp h with hcut | ⟨tail, rfl, hend⟩
  · exact hcut.allBlank hblanks
  rcases cut_cons_iff.mp hend with rfl | ⟨tail, rfl, hnone⟩
  · rwa [List.append_nil]
  · exact absurd hnone (not_cut_nil tail)

def Fault.IsEnding (f : Fault) : Prop := ∃ m, f.cause = .malformed m ∧ m.category = .ending

namespace Scan

variable {α β : Type}

/-- The reader notices that the text has come to its end. -/
def Breaks (scan : Scan α) (cs : List Char) : Prop := ∃ f rest, scan cs = .error f rest ∧ f.IsEnding

theorem breaks_failHere {m : Malformed} (h : m.category = .ending) (cs : List Char) :
    (failHere m : Scan α).Breaks cs :=
  ⟨_, _, rfl, m, rfl, h⟩

theorem breaks_failAtNext {m : Malformed} (h : m.category = .ending) (cs : List Char) :
    (failAtNext m : Scan α).Breaks cs :=
  ⟨_, _, rfl, m, rfl, h⟩

variable {scan : Scan α} {cs : List Char}

theorem Breaks.of_eq {other : Scan α} {rest : List Char} (h : other.Breaks rest)
    (heq : scan cs = other rest) : scan.Breaks cs := by
  rwa [Breaks, heq]

/-- A reader that has come to the end of the text does not go on. -/
theorem Breaks.bind (h : scan.Breaks cs) (next : α → Scan β) : (scan >>= next).Breaks cs := by
  obtain ⟨f, rest, heq, hf⟩ := h
  refine ⟨f, rest, ?_, hf⟩
  change EStateM.bind scan next cs = _
  rw [EStateM.bind, heq]

/-- The end of the text is noticed by whichever reader comes to it. -/
theorem breaks_bind_of_success {a : α} {rest : List Char} (h : scan.success cs = some (a, rest))
    {next : α → Scan β} (hnext : (next a).Breaks rest) : (scan >>= next).Breaks cs := by
  obtain ⟨f, behind, heq, hf⟩ := hnext
  refine ⟨f, behind, ?_, hf⟩
  change EStateM.bind scan next cs = _
  unfold success at h
  split at h
  · rename_i b mid hscan
    obtain ⟨rfl, rfl⟩ := Prod.mk.inj (Option.some.inj h)
    rw [EStateM.bind, hscan]
    exact heq
  · cases h

theorem Breaks.map (h : scan.Breaks cs) (f : α → β) : (f <$> scan).Breaks cs := by
  obtain ⟨fault, rest, heq, hf⟩ := h
  refine ⟨fault, rest, ?_, hf⟩
  change EStateM.map f scan cs = _
  rw [EStateM.map, heq]

theorem Breaks.placed (h : scan.Breaks cs) : (placed scan).Breaks cs := by
  obtain ⟨f, rest, heq, m, hm, hcategory⟩ := h
  refine ⟨⟨f.cause, f.unread.or (some (Text.byteCount rest))⟩, rest, ?_, m, hm, hcategory⟩
  rw [Scan.placed, heq]

/-- The fault inside brackets stays, whatever comes behind it. -/
theorem Breaks.closedBy (h : scan.Breaks cs) (close : Scan Unit) :
    (closedBy scan close).Breaks cs := by
  obtain ⟨f, rest, heq, hf⟩ := h
  cases hclose : close rest with
  | ok _ behind => exact ⟨f, behind, by simp only [Scan.closedBy, heq, hclose], hf⟩
  | error _ behind => exact ⟨f, behind, by simp only [Scan.closedBy, heq, hclose], hf⟩

end Scan

open Scan

/-! String literals -/

/-- A state inside a numbered escape still wants digits. -/
private theorem breaks_readWithin_nil (acc : List Char) {state : Within}
    (h : ∀ missing value leading, state = .digits missing value leading → 0 < missing) :
    (readWithin state acc).Breaks [] := by
  cases state with
  | digits missing value leading =>
    have hmissing : 0 < missing := h missing value leading rfl
    refine ⟨⟨.malformed .endInString, some 0⟩, [], ?_, .endInString, rfl, rfl⟩
    simp [readWithin, badDigits, Text.byteCount, hmissing]
  | _ =>
    refine ⟨⟨.malformed .endInString, some 0⟩, [], ?_, .endInString, rfl, rfl⟩
    simp [readWithin, failHere, Text.byteCount]

private theorem breaks_digits_nil (missing value : Nat) (leading : Option Nat)
    (acc : List Char) : (readWithin (.digits (missing + 1) value leading) acc).Breaks [] := by
  apply breaks_readWithin_nil
  intro m v l heq
  cases heq
  omega

/-- A numbered escape that is cut short is noticed at every digit. -/
private theorem breaks_digits {value : Nat} {digits cs : List Char} (h : SpellsUnit value digits)
    (hcs : Cut digits cs) (leading : Option Nat) (acc : List Char) :
    (readWithin (.digits 4 0 leading) acc).Breaks cs := by
  have hstep {missing value digit : Nat} {c : Char} {tail : List Char}
      (hdigit : Text.hexValue c = some digit)
      (htail : ∀ value, (readWithin (.digits (missing + 1) value leading) acc).Breaks tail) :
      (readWithin (.digits (missing + 2) value leading) acc).Breaks (c :: tail) := by
    obtain ⟨f, rest, heq, hf⟩ := htail (value * 16 + digit)
    exact ⟨f, rest, by simpa [readWithin, hdigit] using heq, hf⟩
  obtain ⟨ha, hb, hc, hd⟩ := h
  rcases cut_cons_iff.mp hcs with rfl | ⟨tail, rfl, hthree⟩
  · exact breaks_digits_nil 3 0 leading acc
  apply hstep ha
  intro value
  rcases cut_cons_iff.mp hthree with rfl | ⟨tail, rfl, htwo⟩
  · exact breaks_digits_nil 2 value leading acc
  apply hstep hb
  intro value
  rcases cut_cons_iff.mp htwo with rfl | ⟨tail, rfl, hone⟩
  · exact breaks_digits_nil 1 value leading acc
  apply hstep hc
  intro value
  rcases cut_cons_iff.mp hone with rfl | ⟨tail, rfl, hnone⟩
  · exact breaks_digits_nil 0 value leading acc
  · exact absurd hnone (not_cut_nil tail)

/-- The first half of a pair is read before the second is missed. -/
private theorem breaks_second_half {leading trailing : Nat} {first second cs : List Char}
    (hfirst : SpellsUnit leading first) (hleading : IsLeading leading)
    (hsecond : SpellsUnit trailing second) (hcs : Cut ('\\' :: 'u' :: second) cs)
    (acc : List Char) : (readWithin (.digits 4 0 none) acc).Breaks (first ++ cs) := by
  have hhalf : unit16 leading none = .leading leading := by
    simp only [IsLeading] at hleading
    rw [unit16, if_neg (by omega), if_pos hleading]
  refine Breaks.of_eq ?_ (readWithin_digits_leading hfirst hhalf acc cs)
  rcases cut_cons_iff.mp hcs with rfl | ⟨tail, rfl, hescape⟩
  · exact breaks_readWithin_nil acc (by simp)
  rcases cut_cons_iff.mp hescape with rfl | ⟨tail, rfl, hdigits⟩
  · exact Breaks.of_eq (breaks_readWithin_nil acc (by simp))
      (by simp [readWithin] : _ = readWithin (.escapeAfterLeading leading) acc [])
  · exact (breaks_digits hsecond hdigits (some leading) acc).of_eq (by simp [readWithin])

/-- A cut goes through the spelling of a character. -/
private theorem breaks_spellsChar {c : Char} {spelled cs : List Char} (h : SpellsChar c spelled)
    (hcs : Cut spelled cs) (acc : List Char) : (readWithin .plain acc).Breaks cs := by
  have hplain : (readWithin .plain acc).Breaks [] := breaks_readWithin_nil acc (by simp)
  have hescape : (readWithin .plain acc).Breaks ['\\'] := by
    have hend : (readWithin .escape acc).Breaks [] := breaks_readWithin_nil acc (by simp)
    exact hend.of_eq (by simp [readWithin])
  have hunit {cs : List Char} (h : (readWithin (.digits 4 0 none) acc).Breaks cs) :
      (readWithin .plain acc).Breaks ('\\' :: 'u' :: cs) := h.of_eq (by simp [readWithin])
  cases h with
  | plain =>
    rcases cut_cons_iff.mp hcs with rfl | ⟨tail, rfl, hnone⟩
    · exact hplain
    · exact absurd hnone (not_cut_nil tail)
  | short =>
    rcases cut_cons_iff.mp hcs with rfl | ⟨tail, rfl, hletter⟩
    · exact hplain
    rcases cut_cons_iff.mp hletter with rfl | ⟨tail, rfl, hnone⟩
    · exact hescape
    · exact absurd hnone (not_cut_nil tail)
  | unit hdigits =>
    rcases cut_cons_iff.mp hcs with rfl | ⟨tail, rfl, hletter⟩
    · exact hplain
    rcases cut_cons_iff.mp hletter with rfl | ⟨tail, rfl, hcut⟩
    · exact hescape
    · exact hunit (breaks_digits hdigits hcut none acc)
  | pair hfirst hleading hsecond =>
    rcases cut_cons_iff.mp hcs with rfl | ⟨tail, rfl, hletter⟩
    · exact hplain
    rcases cut_cons_iff.mp hletter with rfl | ⟨tail, rfl, hcut⟩
    · exact hescape
    rcases cut_append_iff.mp hcut with hdigits | ⟨behind, rfl, hbehind⟩
    · exact hunit (breaks_digits hfirst hdigits none acc)
    · exact hunit (breaks_second_half hfirst hleading hsecond hbehind acc)

/-- A string wants its closing quote, wherever it is cut. -/
theorem breaks_spellsChars {cs inside text : List Char} (h : SpellsChars cs inside)
    (htext : Cut (inside ++ ['"']) text) (acc : List Char) :
    (readWithin .plain acc).Breaks text := by
  induction h generalizing acc text with
  | nil =>
    rcases cut_cons_iff.mp htext with rfl | ⟨tail, rfl, hnone⟩
    · exact breaks_readWithin_nil acc (by simp)
    · exact absurd hnone (not_cut_nil tail)
  | cons hc hcs ih =>
    rw [List.append_assoc] at htext
    rcases cut_append_iff.mp htext with hfirst | ⟨tail, rfl, hothers⟩
    · exact breaks_spellsChar hc hfirst acc
    · exact (ih hothers _).of_eq (readWithin_spellsChar hc acc tail)

/-- A string of which the closing quote is missing is not read. -/
theorem breaks_readString {cs inside text : List Char} (h : SpellsChars cs inside)
    (htext : Cut (inside ++ ['"']) text) : readString.Breaks text :=
  breaks_spellsChars h htext []

end SceneScript.Json
