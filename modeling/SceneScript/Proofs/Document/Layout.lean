import SceneScript.Proofs.Build.Writing
import SceneScript.Proofs.Document.RoundTrip

/-!
The two texts of a scene. They are one document in two layouts: without the spaces and the line
feeds between its tokens, the text on several lines is the compact one, and what stands inside
string literals is the same in both, quotes and backslashes included.
-/
namespace SceneScript

namespace Json

/-- Where a character stands: between string literals, inside one, or behind a backslash inside
one. -/
inductive Spot where
  | between
  | inside
  | escaped
  deriving DecidableEq

/-- Where the next character stands. An opening quote stands between literals and a closing one
inside. -/
def Spot.behind : Spot → Char → Spot
  | .between, c => if c = '"' then .inside else .between
  | .inside, c => if c = '"' then .between else if c = '\\' then .escaped else .inside
  | .escaped, _ => .inside

/-- Deletes the spaces and the line feeds that stand between string literals. -/
def withoutLayout : Spot → List Char → List Char
  | _, [] => []
  | spot, c :: cs =>
    if spot = .between ∧ (c = ' ' ∨ c = '\n') then withoutLayout .between cs
    else c :: withoutLayout (spot.behind c) cs

/-- What stands inside string literals, each literal up to its closing quote. -/
def insideLiterals : Spot → List Char → List Char
  | _, [] => []
  | spot, c :: cs =>
    if spot = .between then insideLiterals (spot.behind c) cs
    else c :: insideLiterals (spot.behind c) cs

/-- Deleting layout leaves the inside of every literal alone. -/
theorem insideLiterals_withoutLayout (spot : Spot) (cs : List Char) :
    insideLiterals spot (withoutLayout spot cs) = insideLiterals spot cs := by
  induction cs generalizing spot with
  | nil => rfl
  | cons c cs ih =>
    rw [withoutLayout]
    split
    · rename_i h
      obtain ⟨rfl, hblank⟩ := h
      have hbehind : Spot.between.behind c = .between := by
        rcases hblank with rfl | rfl <;> rfl
      rw [ih, insideLiterals, if_pos rfl, hbehind]
    · rw [insideLiterals, insideLiterals, ih]

/-- There is nothing left to delete. -/
theorem withoutLayout_withoutLayout (spot : Spot) (cs : List Char) :
    withoutLayout spot (withoutLayout spot cs) = withoutLayout spot cs := by
  induction cs generalizing spot with
  | nil => rfl
  | cons c cs ih =>
    rw [withoutLayout]
    split
    · rename_i h
      rw [h.1, ih]
    · rename_i h
      rw [withoutLayout, if_neg h, ih]

/-- A piece of text that begins and ends between literals, in its layout and without it. -/
def LaidOut (laid dense : List Char) : Prop :=
  ∀ rest, withoutLayout .between (laid ++ rest) = dense ++ withoutLayout .between rest

theorem laidOut_nil : LaidOut [] [] := fun _ => rfl

/-- Layout can be deleted piece by piece where pieces end between literals. -/
theorem LaidOut.append {laid laid' dense dense' : List Char} (h : LaidOut laid dense)
    (h' : LaidOut laid' dense') : LaidOut (laid ++ laid') (dense ++ dense') := by
  intro rest
  rw [List.append_assoc, h, h', List.append_assoc]

/-- A character of a token that is no literal. -/
theorem LaidOut.cons {laid dense : List Char} {c : Char} (h : LaidOut laid dense)
    (hc : c ∉ [' ', '\n', '"']) : LaidOut (c :: laid) (c :: dense) := by
  simp only [List.mem_cons, List.not_mem_nil, or_false, not_or] at hc
  obtain ⟨hspace, hfeed, hquote⟩ := hc
  intro rest
  have hbehind : Spot.between.behind c = .between := if_neg hquote
  rw [List.cons_append, withoutLayout, if_neg (by simp [hspace, hfeed]), hbehind, h]
  rfl

/-- Spaces and line feeds between tokens. -/
theorem laidOut_blanks {blanks : List Char} (h : ∀ c ∈ blanks, c = ' ' ∨ c = '\n') :
    LaidOut blanks [] := by
  induction blanks with
  | nil => exact laidOut_nil
  | cons c blanks ih =>
    obtain ⟨hc, hblanks⟩ := List.forall_mem_cons.mp h
    intro rest
    rw [List.cons_append, withoutLayout, if_pos ⟨rfl, hc⟩, ih hblanks]

theorem laidOut_lineBreak (level : Nat) : LaidOut (lineBreak level) [] := by
  apply laidOut_blanks
  intro c hc
  rcases List.mem_cons.mp hc with rfl | hc
  · exact Or.inr rfl
  · exact Or.inl (List.eq_of_mem_replicate hc)

/-! String literals stay as they are -/

/-- A character of a literal that is neither its end nor a backslash. -/
private theorem withoutLayout_inside {c : Char} (hquote : c ≠ '"') (hslash : c ≠ '\\')
    (rest : List Char) :
    withoutLayout .inside (c :: rest) = c :: withoutLayout .inside rest := by
  have hbehind : Spot.inside.behind c = .inside := by
    rw [Spot.behind, if_neg hquote, if_neg hslash]
  rw [withoutLayout, if_neg (by simp), hbehind]

/-- A hexadecimal digit is none of the other characters. -/
private theorem hexDigit_ne {n : Nat} (h : n < 16) {c : Char} (hc : Text.hexValue c = none) :
    Text.hexDigit n ≠ c := by
  intro heq
  have hvalue := Text.hexValue_hexDigit ⟨n, h⟩
  simp only [heq, hc] at hvalue
  exact absurd hvalue (by simp)

/-- An escaped character is kept as it is, and leaves the scan inside the literal. -/
theorem withoutLayout_escapedChar (c : Char) (rest : List Char) :
    withoutLayout .inside (escapedChar c ++ rest) =
      escapedChar c ++ withoutLayout .inside rest := by
  unfold escapedChar
  split_ifs with hquote hslash _ _ _ _ _ hcontrol
  -- A backslash shields whatever follows it.
  any_goals rfl
  · have hhigh : c.toNat / 16 < 16 := by omega
    have hlow : c.toNat % 16 < 16 := Nat.mod_lt _ (by decide)
    have hdigit {n : Nat} (hn : n < 16) (rest : List Char) :=
      withoutLayout_inside (hexDigit_ne hn (by decide)) (hexDigit_ne hn (by decide)) rest
    have hzeros (rest : List Char) :
        withoutLayout .inside ('\\' :: 'u' :: '0' :: '0' :: rest) =
          '\\' :: 'u' :: '0' :: '0' :: withoutLayout .inside rest := rfl
    simp only [List.cons_append, List.nil_append, hzeros, hdigit hhigh, hdigit hlow]
  · exact withoutLayout_inside hquote hslash rest

/-- Literals are kept as they are, spaces and line feeds in them included. -/
theorem laidOut_stringLiteral (s : String) : LaidOut (stringLiteral s) (stringLiteral s) := by
  have hinside (cs rest : List Char) :
      withoutLayout .inside (cs.flatMap escapedChar ++ rest) =
        cs.flatMap escapedChar ++ withoutLayout .inside rest := by
    induction cs with
    | nil => rfl
    | cons c cs ih =>
      rw [List.flatMap_cons, List.append_assoc, withoutLayout_escapedChar, ih, List.append_assoc]
  intro rest
  have hopen (rest : List Char) :
      withoutLayout .between ('"' :: rest) = '"' :: withoutLayout .inside rest := rfl
  have hclose (rest : List Char) :
      withoutLayout .inside ('"' :: rest) = '"' :: withoutLayout .between rest := rfl
  simp only [stringLiteral, List.cons_append, List.append_assoc, List.nil_append, hopen, hinside,
    hclose]

/-! The two ways of writing a value -/

/-- A key and its value, on a line of their own. -/
theorem laidOut_member (k : String) (level : Nat) {laid dense : List Char}
    (h : LaidOut laid dense) :
    LaidOut (lineBreak level ++ stringLiteral k ++ ':' :: ' ' :: laid)
      (stringLiteral k ++ ':' :: dense) := by
  have hspace : LaidOut [' '] [] := laidOut_blanks fun c hc => Or.inl (List.mem_singleton.mp hc)
  have hvalue : LaidOut (':' :: ' ' :: laid) (':' :: dense) := (hspace.append h).cons (by decide)
  exact ((laidOut_lineBreak level).append (laidOut_stringLiteral k)).append hvalue

mutual

/-- At whatever level a value stands, it is laid out from its compact form. -/
theorem laidOut_pretty : ∀ (v : Json) (level : Nat), v.IsTextual →
    LaidOut (v.pretty level) v.compact
  | .string s, _, _ => laidOut_stringLiteral s
  | .array [], _, _ => (laidOut_nil.cons (by decide)).cons (by decide)
  | .array (v :: vs), level, h =>
    (((laidOut_lineBreak (level + 1)).cons (by decide)).append
      (laidOut_pretty v (level + 1) h.1)).append (laidOut_prettyItems vs level h.2)
  | .object [], _, _ => (laidOut_nil.cons (by decide)).cons (by decide)
  | .object ((k, v) :: ms), level, h =>
    ((laidOut_member k (level + 1) (laidOut_pretty v (level + 1) h.1)).cons (by decide)).append
      (laidOut_prettyMembers ms level h.2)

theorem laidOut_prettyItems : ∀ (vs : List Json) (level : Nat), ItemsTextual vs →
    LaidOut (prettyItems level vs) (compactItems vs)
  | [], level, _ => (laidOut_lineBreak level).append (laidOut_nil.cons (by decide))
  | v :: vs, level, h =>
    (((laidOut_lineBreak (level + 1)).cons (by decide)).append
      (laidOut_pretty v (level + 1) h.1)).append (laidOut_prettyItems vs level h.2)

theorem laidOut_prettyMembers : ∀ (ms : List (String × Json)) (level : Nat), MembersTextual ms →
    LaidOut (prettyMembers level ms) (compactMembers ms)
  | [], level, _ => (laidOut_lineBreak level).append (laidOut_nil.cons (by decide))
  | (k, v) :: ms, level, h =>
    ((laidOut_member k (level + 1) (laidOut_pretty v (level + 1) h.1)).cons (by decide)).append
      (laidOut_prettyMembers ms level h.2)

end

end Json

open Json Build

namespace Scene

variable (scene : Scene)

theorem withoutLayout_pretty :
    withoutLayout .between scene.pretty.toList = scene.compact.toList := by
  have hlaid := laidOut_pretty scene.toJson 0 scene.isTextual_toJson []
  rw [List.append_nil] at hlaid
  rw [Scene.pretty, Scene.compact, prettyText, compactText, String.toList_ofList,
    String.toList_ofList, hlaid]
  exact List.append_nil _

/-- Whatever layout a configuration asks for, it is the layout of the compact text. -/
theorem withoutLayout_contentsFor (config : WriteConfig) :
    withoutLayout .between (Stage.contentsFor config scene).toList = scene.compact.toList := by
  unfold Stage.contentsFor
  split
  · exact scene.withoutLayout_pretty
  · rw [← scene.withoutLayout_pretty, withoutLayout_withoutLayout]

/-- The laid-out text is the compact one with spaces and line feeds put between its tokens, and
none of them inside a string. A writer is handed the one or the other, so the configuration decides
about nothing but such layout. -/
theorem documents_differ_in_layout :
    String.ofList (withoutLayout .between scene.pretty.toList) = scene.compact ∧
    insideLiterals .between scene.pretty.toList = insideLiterals .between scene.compact.toList ∧
    ∀ config : WriteConfig,
      String.ofList (withoutLayout .between (Stage.contentsFor config scene).toList) =
        scene.compact ∧
      insideLiterals .between (Stage.contentsFor config scene).toList =
        insideLiterals .between scene.compact.toList ∧
      ∀ (writer : Writer) (path : String) (world : World) (journal : List Event),
        ((Stage.writeWith writer config).outcome
            ⟨⟨{ scene with outputPath := some path }, world⟩, journal⟩).2.world =
          (writer ⟨path, Stage.contentsFor config scene, config⟩ world).2 := by
  refine ⟨?_, ?_, fun config => ⟨?_, ?_, ?_⟩⟩
  · rw [withoutLayout_pretty, String.ofList_toList]
  · rw [← withoutLayout_pretty, insideLiterals_withoutLayout]
  · rw [withoutLayout_contentsFor, String.ofList_toList]
  · rw [← withoutLayout_contentsFor scene config, insideLiterals_withoutLayout]
  · intro writer path world journal
    cases hcall : writer ⟨path, Stage.contentsFor config scene, config⟩ world with
    | mk result after =>
    have hpath : { scene with outputPath := some path }.outputPath = some path := rfl
    cases result with
    | ok _ => rw [outcome_eq_ok_iff.mpr ⟨_, Stage.writeWith_of_ok hpath hcall, rfl⟩]
    | error fault => rw [outcome_eq_error_iff.mpr ⟨_, Stage.writeWith_of_error hpath hcall, rfl⟩]

end Scene

end SceneScript
