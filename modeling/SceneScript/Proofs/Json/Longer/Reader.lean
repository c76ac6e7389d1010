import Mathlib.Data.List.TakeWhile
import SceneScript.Proofs.Json.Longer.Value
import SceneScript.Proofs.Json.Reader

/-!
Known shapes in longer texts. Every reader of strings, lists and objects is stable, so nothing can
follow what has been read from a whole text but white space.
-/
namespace SceneScript.Json

open Scan

variable {α β σ : Type}

def Reader.Stable (r : Reader α) : Prop := ∀ depth, Scan.Stable (r.fromText depth)

theorem stable_wrongType (expected : String) : Stable (wrongType expected : Scan α) :=
  extends_of_fails (success_wrongType expected)

namespace Reader

theorem Stable.map {r : Reader α} (h : r.Stable) (f : α → β) : (r.map f).Stable :=
  fun depth => Extends.map (h depth) f

private theorem stable_stringOr {other string : Scan α} (hother : Scan.Stable other)
    (hstring : Scan.Stable string) : Scan.Stable (stringOr other string) := by
  have htoken : (stringOr other string).ByToken fun c tail =>
      if c = '"' then string tail else other.after c tail := by
    intro cs
    simp only [success, stringOr]
    cases skipBlanks cs <;> rfl
  apply htoken.extends htoken
  intro c
  apply Extends.ite
  · intro _
    exact hstring
  · intro _
    exact Extends.after hother c

theorem stable_text (expected : String) (f : String → Except Unsuitable α) :
    (text expected f).Stable := by
  intro depth
  apply Extends.placed
  apply stable_stringOr (stable_wrongType expected)
  exact stable_readString.bind_of_any fun s => stable_accept (f s)

theorem stable_string : string.Stable := stable_text "a string" .ok

theorem stable_keyword (expected : String) (meanings : List (String × α)) :
    (keyword expected meanings).Stable := stable_text expected _

/-- Items are followed by a comma or a bracket, so a list is stable if they are. -/
theorem Stable.list {r : Reader α} (h : r.Stable) : (list r).Stable := by
  intro depth
  apply extends_valueOf
  · apply stable_nested
    · intro less
      exact stable_itemsToEnd (Extends.of_any (h less)) true
    · exact stable_endList
  · exact (stable_wrongType _).after '{'
  · exact stable_wrongType _

end Reader

namespace Shape

variable {shape : Shape σ}

/-- A member that is passed over may be a number, which has to see what follows. -/
private theorem delimited_member (hfields : ∀ f ∈ shape.fields, f.fill.Stable) (depth : Nat)
    (draft : Draft σ) (key : String) : Delimited (shape.member depth draft key) := by
  cases hfield : shape.fieldOf draft key with
  | error fault =>
    apply extends_of_fails
    intro cs
    simp [member, hfield, accept]
  | ok found =>
    cases found with
    | some f =>
      have heq : shape.member depth draft key =
          (do colon; let put ← f.fill.fromText depth; pure ((key, put) :: draft)) := by
        rw [member, hfield]
        rfl
      have hfill := hfields f (mem_of_fieldOf hfield) depth
      rw [heq]
      apply Extends.of_any
      apply stable_colon.bind_of_any
      intro _
      exact Extends.bind_of_any hfill fun put => stable_pure ((key, put) :: draft)
    | none =>
      have heq : shape.member depth draft key = (do colon; skip; pure draft) := by
        rw [member, hfield]
        rfl
      rw [heq]
      apply stable_colon.bind_of_any
      intro _
      apply delimited_skip.bind_of_some
      · intro _
        exact (stable_pure draft).of_any
      · intro _ t rest hok
        obtain ⟨_, rfl⟩ : draft = t ∧ [] = rest := by simpa using hok
        exact absurd rfl

private theorem stable_inOrder {fields : List (Field σ)} (hfields : ∀ f ∈ fields, f.fill.Stable)
    (depth i : Nat) (isFirst : Bool) (s : σ) :
    Scan.Stable (shape.inOrder depth i fields isFirst s) := by
  induction fields generalizing i isFirst s with
  | nil => exact stable_pure s
  | cons f fields ih =>
    have ih := ih fun g hg => hfields g (List.mem_cons_of_mem f hg)
    rw [inOrder]
    apply (stable_nextItem isFirst).bind_of_any
    intro hasItem
    cases hasItem with
    | true =>
      apply Extends.bind_of_any (hfields f (List.mem_cons_self ..) depth)
      intro put
      exact ih (i + 1) false (put s)
    | false =>
      cases hrequired : f.isRequired with
      | true => exact extends_of_fails fun _ => rfl
      | false => exact ih (i + 1) isFirst s

/-- A record ends with its bracket, whatever is passed over inside. -/
theorem stable_reader (hfields : ∀ f ∈ shape.fields, f.fill.Stable) : shape.reader.Stable := by
  intro depth
  apply extends_valueOf
  · apply stable_nested
    · intro less
      exact stable_inOrder hfields less 0 true shape.blank
    · exact stable_endList
  · apply stable_nested
    · intro less
      exact (stable_membersToEnd (delimited_member hfields less) []).bind_of_any fun draft =>
        stable_accept (shape.complete draft)
    · exact stable_endObject
  · exact stable_wrongType _

end Shape

namespace Tagged

variable (t : Tagged α)

private theorem delimited_member (depth : Nat) (parts : Parts α) (key : String) :
    Delimited (t.member depth parts key) := by
  unfold member
  by_cases htag : key = t.tag
  · rw [if_pos htag]
    cases parts.payload with
    | some payload => exact extends_of_fails fun _ => rfl
    | none =>
      apply Extends.of_any
      apply stable_colon.bind_of_any
      intro _
      exact Extends.bind_of_any (Reader.stable_keyword _ t.variants depth) fun payload =>
        stable_pure _
  · rw [if_neg htag]
    apply stable_colon.bind_of_any
    intro _
    apply (delimited_read depth).bind_of_some
    · intro v
      exact (stable_pure _).of_any
    · intro v parts' rest hok
      obtain ⟨_, rfl⟩ : _ = parts' ∧ [] = rest := by simpa using hok
      exact absurd rfl

private theorem stable_listForm (depth : Nat) : Scan.Stable (t.listForm depth) := by
  apply (stable_nextItem true).bind_of_any
  intro hasItem
  cases hasItem with
  | false => exact extends_of_fails fun _ => rfl
  | true =>
    apply Extends.bind_of_any (Reader.stable_keyword _ t.variants depth)
    intro payload
    apply (stable_itemsToEnd (delimited_read depth) false).bind_of_any
    intro vs
    exact stable_pure _

/-- Both forms of a tagged shape end with their brackets. -/
theorem stable_reader : t.reader.Stable := by
  intro depth
  have hvariant : Scan.Stable (t.variantOfText depth) := by
    apply extends_valueOf
    · exact stable_nested (stable_listForm t) stable_endList depth '['
    · apply stable_nested
      · intro less
        exact (stable_membersToEnd (delimited_member t less) {}).bind_of_any fun parts =>
          stable_accept (Parts.complete t parts)
      · exact stable_endObject
    · exact stable_wrongType _
  exact hvariant.bind_of_any fun p => stable_accept (p.1.fromValue p.2)

end Tagged

/-! Whole texts -/

theorem allBlank_iff_skipBlanks {cs : List Char} : AllBlank cs ↔ skipBlanks cs = [] := by
  rw [skipBlanks, List.dropWhile_eq_nil_iff]
  rfl

/-- Nothing but white space is accepted behind a value. -/
theorem success_endText_eq_some_iff {cs : List Char} {p : Unit × List Char} :
    endText.success cs = some p ↔ AllBlank cs ∧ p = ((), []) := by
  rw [allBlank_iff_skipBlanks]
  unfold success endText
  cases skipBlanks cs with
  | nil => simp [eq_comm]
  | cons c tail => simp [failAtNext]

/-- A whole text is read when what is left over is blank. -/
theorem Reader.parse_eq_ok_iff_allBlank {r : Reader α} {source : String} {a : α} :
    r.parse source = .ok a ↔
      ∃ rest, (r.fromText depthLimit).success source.toList = some (a, rest) ∧
        AllBlank rest := by
  have hwhole : r.parse source = .ok a ↔
      ∃ rest, r.toEnd.success source.toList = some (a, rest) := by
    unfold Reader.parse success
    cases r.toEnd source.toList <;> simp
  rw [hwhole, toEnd]
  constructor
  · intro h
    obtain ⟨_, h⟩ := h
    rw [success_bind] at h
    obtain ⟨⟨b, rest⟩, hread, h⟩ := Option.bind_eq_some_iff.mp h
    rw [success_bind] at h
    obtain ⟨p, hend, h⟩ := Option.bind_eq_some_iff.mp h
    obtain ⟨hblank, rfl⟩ := success_endText_eq_some_iff.mp hend
    obtain rfl : b = a := congrArg Prod.fst (Option.some.inj h)
    exact ⟨rest, hread, hblank⟩
  · intro h
    obtain ⟨rest, hread, hblank⟩ := h
    refine ⟨[], ?_⟩
    rw [success_bind, hread, Option.bind_some, success_bind,
      success_endText_eq_some_iff.mpr ⟨hblank, rfl⟩]
    rfl

/-- A longer text is read when only white space has been added, and then as the same. -/
theorem Reader.Stable.parse_append_eq_ok_iff {r : Reader α} (h : r.Stable) {source : String}
    {a : α} (hsource : r.parse source = .ok a) (more : String) (b : α) :
    r.parse (source ++ more) = .ok b ↔ b = a ∧ AllBlank more.toList := by
  obtain ⟨rest, hread, hblank⟩ := parse_eq_ok_iff_allBlank.mp hsource
  have hlonger := h depthLimit source.toList a rest hread trivial more.toList
  rw [parse_eq_ok_iff_allBlank, String.toList_append, hlonger]
  constructor
  · intro hok
    obtain ⟨rest', heq, hblank'⟩ := hok
    obtain ⟨rfl, rfl⟩ := Prod.mk.inj (Option.some.inj heq)
    exact ⟨rfl, fun c hc => hblank' c (List.mem_append_right rest hc)⟩
  · intro hok
    obtain ⟨rfl, hmore⟩ := hok
    exact ⟨rest ++ more.toList, rfl, hblank.append hmore⟩

end SceneScript.Json
