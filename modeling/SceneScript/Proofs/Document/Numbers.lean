import Mathlib.Data.List.Perm.Basic
import SceneScript.Proofs.Document.Parse
import SceneScript.Proofs.Json.NumberRange

/-!
The numbers of a document. No member that a scene is made of holds one, so a value is the same scene
whatever numbers stand in it. Only the size of a number decides whether the text around it can be
read, and a number that leaves some room in the binary format does no harm.
-/
namespace SceneScript

namespace Json

mutual

/-- The value with zero for every number. -/
def withoutNumbers : Json → Json
  | .null => .null
  | .bool b => .bool b
  | .number _ => .number (.natural 0)
  | .string s => .string s
  | .array vs => .array (itemsWithoutNumbers vs)
  | .object ms => .object (membersWithoutNumbers ms)

def itemsWithoutNumbers : List Json → List Json
  | [] => []
  | v :: vs => withoutNumbers v :: itemsWithoutNumbers vs

def membersWithoutNumbers : List (String × Json) → List (String × Json)
  | [] => []
  | (k, v) :: ms => (k, withoutNumbers v) :: membersWithoutNumbers ms

end

def SameButNumbers (v w : Json) : Prop := v.withoutNumbers = w.withoutNumbers

def SameMember (m n : String × Json) : Prop := m.1 = n.1 ∧ SameButNumbers m.2 n.2

/-- Lists are the same but for numbers when they are so item by item. -/
theorem itemsWithoutNumbers_eq_iff {vs ws : List Json} :
    itemsWithoutNumbers vs = itemsWithoutNumbers ws ↔ List.Forall₂ SameButNumbers vs ws := by
  induction vs generalizing ws with
  | nil => cases ws <;> simp [itemsWithoutNumbers]
  | cons v vs ih => cases ws <;> simp [itemsWithoutNumbers, SameButNumbers, ih]

theorem membersWithoutNumbers_eq_iff {ms ns : List (String × Json)} :
    membersWithoutNumbers ms = membersWithoutNumbers ns ↔ List.Forall₂ SameMember ms ns := by
  induction ms generalizing ns with
  | nil => cases ns <;> simp [membersWithoutNumbers]
  | cons m ms ih =>
    cases ns <;> simp [membersWithoutNumbers, SameMember, SameButNumbers, ih]

mutual

/-- Brackets are where they were. -/
theorem depth_withoutNumbers : ∀ v : Json, v.withoutNumbers.depth = v.depth
  | .null | .bool _ | .number _ | .string _ => rfl
  | .array vs => congrArg (· + 1) (itemsDepth_withoutNumbers vs)
  | .object ms => congrArg (· + 1) (membersDepth_withoutNumbers ms)

theorem itemsDepth_withoutNumbers : ∀ vs, itemsDepth (itemsWithoutNumbers vs) = itemsDepth vs
  | [] => rfl
  | v :: vs => congrArg₂ max (depth_withoutNumbers v) (itemsDepth_withoutNumbers vs)

theorem membersDepth_withoutNumbers :
    ∀ ms, membersDepth (membersWithoutNumbers ms) = membersDepth ms
  | [] => rfl
  | (_, v) :: ms => congrArg₂ max (depth_withoutNumbers v) (membersDepth_withoutNumbers ms)

end

namespace SameButNumbers

variable {v w : Json}

theorem depth_eq (h : SameButNumbers v w) : v.depth = w.depth := by
  rw [← depth_withoutNumbers v, h, depth_withoutNumbers w]

theorem eq_string {s : String} (h : SameButNumbers (.string s) w) : w = .string s := by
  cases w <;> simp_all [SameButNumbers, withoutNumbers]

theorem exists_array {vs : List Json} (h : SameButNumbers (.array vs) w) :
    ∃ ws, w = .array ws ∧ List.Forall₂ SameButNumbers vs ws := by
  cases w with
  | array ws => exact ⟨ws, rfl, itemsWithoutNumbers_eq_iff.mp (Json.array.inj h)⟩
  | _ => cases h

/-- Keys hold no numbers, so they are the same, in the same order. -/
theorem exists_object {ms : List (String × Json)} (h : SameButNumbers (.object ms) w) :
    ∃ ns, w = .object ns ∧ List.Forall₂ SameMember ms ns := by
  cases w with
  | object ns => exact ⟨ns, rfl, membersWithoutNumbers_eq_iff.mp (Json.object.inj h)⟩
  | _ => cases h

end SameButNumbers

namespace SameMember

variable {key : String} {m : String × Json}

theorem exists_eq {v : Json} (h : SameMember (key, v) m) :
    ∃ w, m = (key, w) ∧ SameButNumbers v w :=
  ⟨m.2, Prod.ext h.1.symm rfl, h.2⟩

theorem eq_string {s : String} (h : SameMember (key, .string s) m) : m = (key, .string s) :=
  Prod.ext h.1.symm h.2.eq_string

end SameMember

section

variable {ms ns : List (String × Json)} {key : String}

theorem Lacks.of_forall₂ (h : Lacks ms key) (hms : List.Forall₂ SameMember ms ns) :
    Lacks ns key := by
  induction hms with
  | nil => exact h
  | cons hm _ ih =>
    obtain ⟨hne, hrest⟩ := lacks_cons_iff.mp h
    exact lacks_cons_iff.mpr ⟨hm.1 ▸ hne, ih hrest⟩

/-- The member with a key is found in its place, whatever numbers it holds. -/
theorem Sole.of_forall₂ {v : Json} (h : Sole ms key v) (hms : List.Forall₂ SameMember ms ns) :
    ∃ w, Sole ns key w ∧ SameButNumbers v w := by
  have hfilter : List.Forall₂ SameMember (ms.filter fun m => m.1 = key)
      (ns.filter fun m => m.1 = key) :=
    List.rel_filter (fun m n hmn => by simp [hmn.1]) hms
  rw [h] at hfilter
  obtain ⟨n, _, hn, hnil, hsole⟩ := List.forall₂_cons_left_iff.mp hfilter
  obtain ⟨rfl, hv⟩ := hn
  rw [List.forall₂_nil_left_iff.mp hnil] at hsole
  exact ⟨n.2, hsole, hv⟩

theorem Sole.string_of_forall₂ {s : String} (h : Sole ms key (.string s))
    (hms : List.Forall₂ SameMember ms ns) : Sole ns key (.string s) := by
  obtain ⟨w, hsole, hw⟩ := h.of_forall₂ hms
  rwa [hw.eq_string] at hsole

end

/-- The list form has lost the keys; they are put back from the members on the other side. -/
theorem exists_members_of_values {ms : List (String × Json)} {ws : List Json}
    (h : List.Forall₂ SameButNumbers (ms.map Prod.snd) ws) :
    ∃ ns, List.Forall₂ SameMember ms ns ∧ ns.map Prod.snd = ws := by
  induction ms generalizing ws with
  | nil => exact ⟨[], .nil, (List.forall₂_nil_left_iff.mp h).symm⟩
  | cons m ms ih =>
    obtain ⟨w, ws, hw, hws, rfl⟩ := List.forall₂_cons_left_iff.mp h
    obtain ⟨ns, hns, rfl⟩ := ih hws
    exact ⟨(m.1, w) :: ns, .cons ⟨rfl, hw⟩ hns, rfl⟩

/-- What a value is, is the same whatever numbers stand in it. -/
def IgnoresNumbers {α : Type} (describes : Json → α → Prop) : Prop :=
  ∀ ⦃v w a⦄, SameButNumbers v w → describes v a → describes w a

theorem IgnoresNumbers.items {α : Type} {describes : Json → α → Prop}
    (h : IgnoresNumbers describes) {vs ws : List Json} {as : List α}
    (hvs : List.Forall₂ SameButNumbers vs ws) (has : List.Forall₂ describes vs as) :
    List.Forall₂ describes ws as := by
  induction hvs generalizing as with
  | nil => exact has
  | cons hv _ ih =>
    cases has with
    | cons ha has => exact .cons (h hv ha) (ih has)

/-- A list of things that are known apart from numbers is known apart from numbers. -/
theorem IgnoresNumbers.list {α : Type} {describes : Json → α → Prop}
    (h : IgnoresNumbers describes) :
    IgnoresNumbers fun v as => ∃ items, v = .array items ∧ List.Forall₂ describes items as := by
  rintro _ w as hsame ⟨items, rfl, has⟩
  obtain ⟨ws, rfl, hws⟩ := hsame.exists_array
  exact ⟨ws, rfl, h.items hws has⟩

end Json

open Json

/-! The records of a document, from the lines up -/

/-- A line consists of strings. -/
theorem IsLine.ignoresNumbers : IgnoresNumbers IsLine := by
  intro v w line hsame h
  cases h with
  | spoken hspeaker hkey htext =>
    obtain ⟨ns, rfl, hns⟩ := hsame.exists_object
    obtain _ | ⟨hspoken, _ | _⟩ := hns
    rw [hspoken.eq_string]
    exact .spoken hspeaker hkey htext
  | shown hspeaker hkey htext himage hms =>
    obtain ⟨ns, rfl, hns⟩ := hsame.exists_object
    obtain ⟨members, hmembers, hperm⟩ := List.perm_comp_forall₂ hms.symm hns
    -- in the order of the constructor both members are strings, which decides them
    obtain _ | ⟨hspoken, _ | ⟨hshown, _ | _⟩⟩ := hmembers
    rw [hspoken.eq_string, hshown.eq_string] at hperm
    exact .shown hspeaker hkey htext himage hperm.symm

theorem IsBlock.ignoresNumbers : IgnoresNumbers IsBlock := IsLine.ignoresNumbers.list

/-- Only members that are passed over can be numbers in a choice. -/
theorem IsChoice.ignoresNumbers : IgnoresNumbers IsChoice := by
  intro v w choice hsame h
  cases h with
  | object hname hne hdialogue hblock =>
    obtain ⟨ns, rfl, hns⟩ := hsame.exists_object
    obtain ⟨block, hdialogue, hsameBlock⟩ := hdialogue.of_forall₂ hns
    exact .object (hname.string_of_forall₂ hns) hne hdialogue
      (IsBlock.ignoresNumbers hsameBlock hblock)
  | list hne hblock =>
    obtain ⟨ws, rfl, hws⟩ := hsame.exists_array
    obtain _ | ⟨hname, _ | ⟨hsameBlock, _ | _⟩⟩ := hws
    rw [hname.eq_string]
    exact .list hne (IsBlock.ignoresNumbers hsameBlock hblock)

theorem IsChoices.ignoresNumbers : IgnoresNumbers IsChoices := IsChoice.ignoresNumbers.list

theorem IsFlag.ignoresNumbers : IgnoresNumbers IsFlag := by
  intro v w flag hsame h
  cases h with
  | yes => rw [hsame.eq_string]; exact .yes
  | no => rw [hsame.eq_string]; exact .no

theorem IsSettings.ignoresNumbers : IgnoresNumbers IsSettings := by
  intro v w flag hsame h
  cases h with
  | object hwait hflag =>
    obtain ⟨ns, rfl, hns⟩ := hsame.exists_object
    obtain ⟨w, hwait, hsameFlag⟩ := hwait.of_forall₂ hns
    exact .object hwait (IsFlag.ignoresNumbers hsameFlag hflag)
  | list hflag =>
    obtain ⟨ws, rfl, hws⟩ := hsame.exists_array
    obtain _ | ⟨hsameFlag, _ | _⟩ := hws
    exact .list (IsFlag.ignoresNumbers hsameFlag hflag)

theorem IsPath.of_forall₂ {ms ns : List (String × Json)} {key path : String}
    (h : IsPath ms key path) (hms : List.Forall₂ SameMember ms ns) : IsPath ns key path := by
  rcases h with hsole | ⟨hlacks, hempty⟩
  · exact Or.inl (hsole.string_of_forall₂ hms)
  · exact Or.inr ⟨hlacks.of_forall₂ hms, hempty⟩

theorem IsImageChange.ignoresNumbers : IgnoresNumbers IsImageChange := by
  intro v w change hsame h
  cases h with
  | object hbackground hcharacter =>
    obtain ⟨ns, rfl, hns⟩ := hsame.exists_object
    exact .object (hbackground.of_forall₂ hns) (hcharacter.of_forall₂ hns)
  | neither =>
    obtain ⟨ws, rfl, _ | _⟩ := hsame.exists_array
    exact .neither
  | first =>
    obtain ⟨ws, rfl, _ | ⟨hbackground, _ | _⟩⟩ := hsame.exists_array
    rw [hbackground.eq_string]
    exact .first
  | both =>
    obtain ⟨ws, rfl, _ | ⟨hbackground, _ | ⟨hcharacter, _ | _⟩⟩⟩ := hsame.exists_array
    rw [hbackground.eq_string, hcharacter.eq_string]
    exact .both

theorem IsPayload.of_forall₂ {payload others : List (String × Json)} {part : Part}
    (h : IsPayload payload part) (hothers : List.Forall₂ SameMember payload others) :
    IsPayload others part := by
  cases h with
  | dialogue hblock =>
    obtain _ | ⟨hmember, _ | _⟩ := hothers
    obtain ⟨_, rfl, hsame⟩ := hmember.exists_eq
    exact .dialogue (IsBlock.ignoresNumbers hsame hblock)
  | branch hchoices hsettings =>
    obtain _ | ⟨hmember, _ | ⟨hoptions, _ | _⟩⟩ := hothers
    obtain ⟨_, rfl, hsame⟩ := hmember.exists_eq
    obtain ⟨_, rfl, hsameSettings⟩ := hoptions.exists_eq
    exact .branch (IsChoices.ignoresNumbers hsame hchoices)
      (IsSettings.ignoresNumbers hsameSettings hsettings)
  | imageChange hchange =>
    obtain _ | ⟨hmember, _ | _⟩ := hothers
    obtain ⟨_, rfl, hsame⟩ := hmember.exists_eq
    exact .imageChange (IsImageChange.ignoresNumbers hsame hchange)

/-- Parts allow no other members, and their payloads hold no numbers but where these are passed
over. -/
theorem IsPart.ignoresNumbers : IgnoresNumbers IsPart := by
  intro v w part hsame h
  cases h with
  | object hpayload hms =>
    obtain ⟨ns, rfl, hns⟩ := hsame.exists_object
    obtain ⟨members, hmembers, hperm⟩ := List.perm_comp_forall₂ hms.symm hns
    obtain _ | ⟨hkind, hothers⟩ := hmembers
    rw [hkind.eq_string] at hperm
    exact .object (hpayload.of_forall₂ hothers) hperm.symm
  | list hpayload =>
    obtain ⟨ws, rfl, _ | ⟨hkind, hvalues⟩⟩ := hsame.exists_array
    rw [hkind.eq_string]
    obtain ⟨others, hothers, rfl⟩ := exists_members_of_values hvalues
    exact .list (hpayload.of_forall₂ hothers)

/-- Numbers may stand in a scene only where they are passed over. -/
theorem IsScene.ignoresNumbers : IgnoresNumbers IsScene := by
  intro v w scene hsame h
  cases h with
  | object hversion hparts hitems =>
    obtain ⟨ns, rfl, hns⟩ := hsame.exists_object
    obtain ⟨_, hparts, hsameParts⟩ := hparts.of_forall₂ hns
    obtain ⟨items, rfl, hsameItems⟩ := hsameParts.exists_array
    exact .object (hversion.string_of_forall₂ hns) hparts
      (IsPart.ignoresNumbers.items hsameItems hitems)
  | list hitems =>
    obtain ⟨ws, rfl, _ | ⟨hversion, _ | ⟨hparts, _ | _⟩⟩⟩ := hsame.exists_array
    rw [hversion.eq_string]
    obtain ⟨items, rfl, hsameItems⟩ := hparts.exists_array
    exact .list (IsPart.ignoresNumbers.items hsameItems hitems)

/-! Texts -/

namespace Json

theorem padded_exists {α : Type} {spelled : List Char → Prop} {others : α → List Char → Prop}
    {P : α → Prop} (h : ∀ cs, spelled cs → ∃ w, P w ∧ others w cs) {cs : List Char}
    (hcs : Padded spelled cs) : ∃ w, P w ∧ Padded (others w) cs := by
  obtain ⟨before, inside, after, hbefore, hinside, hafter, rfl⟩ := hcs
  obtain ⟨w, hw, hothers⟩ := h inside hinside
  exact ⟨w, hw, padded_of_spells hbefore hothers hafter⟩

/-- Some small literal, which need not spell this number. -/
def IsSmallNumeral (_ : Number) (cs : List Char) : Prop :=
  ∃ l : NumberLiteral, l.IsSmall ∧ cs = l.chars

mutual

/-- Small literals can all be read, so a text spells a value as soon as everything beside them is
spelled; the numbers of that value need not be those that the text was taken to hold. -/
theorem exists_isText : ∀ v cs, Spells IsSmallNumeral v cs → ∃ w, SameButNumbers v w ∧ IsText w cs
  | .null, _, h => ⟨.null, rfl, h⟩
  | .bool b, _, h => ⟨.bool b, rfl, h⟩
  | .number _, _, ⟨l, hl, hcs⟩ => by
    obtain ⟨n, hn⟩ := Option.isSome_iff_exists.mp hl.number_isSome
    exact ⟨.number n, rfl, l, hn, hcs⟩
  | .string s, _, h => ⟨.string s, rfl, h⟩
  | .array [], _, h => ⟨.array [], rfl, h⟩
  | .array (v :: vs), _, ⟨_, _, hfirst, hothers, hcs⟩ => by
    obtain ⟨w, hw, hfirst⟩ := padded_exists (exists_isText v) hfirst
    obtain ⟨ws, hws, hothers⟩ := exists_spellsItems vs _ hothers
    refine ⟨.array (w :: ws), ?_, _, _, hfirst, hothers, hcs⟩
    exact congrArg Json.array (itemsWithoutNumbers_eq_iff.mpr (.cons hw hws))
  | .object [], _, h => ⟨.object [], rfl, h⟩
  | .object ((k, v) :: ms), _, ⟨_, _, _, hkey, hvalue, hothers, hcs⟩ => by
    obtain ⟨w, hw, hvalue⟩ := padded_exists (exists_isText v) hvalue
    obtain ⟨ns, hns, hothers⟩ := exists_spellsMembers ms _ hothers
    refine ⟨.object ((k, w) :: ns), ?_, _, _, _, hkey, hvalue, hothers, hcs⟩
    exact congrArg Json.object (membersWithoutNumbers_eq_iff.mpr (.cons ⟨rfl, hw⟩ hns))

theorem exists_spellsItems : ∀ vs cs, SpellsItems IsSmallNumeral vs cs →
    ∃ ws, List.Forall₂ SameButNumbers vs ws ∧ SpellsItems NumberLiteral.Reads ws cs
  | [], _, h => ⟨[], .nil, h⟩
  | v :: vs, _, ⟨_, _, hfirst, hothers, hcs⟩ => by
    obtain ⟨w, hw, hfirst⟩ := padded_exists (exists_isText v) hfirst
    obtain ⟨ws, hws, hothers⟩ := exists_spellsItems vs _ hothers
    exact ⟨w :: ws, .cons hw hws, _, _, hfirst, hothers, hcs⟩

theorem exists_spellsMembers : ∀ ms cs, SpellsMembers IsSmallNumeral ms cs →
    ∃ ns, List.Forall₂ SameMember ms ns ∧ SpellsMembers NumberLiteral.Reads ns cs
  | [], _, h => ⟨[], .nil, h⟩
  | (k, v) :: ms, _, ⟨_, _, _, hkey, hvalue, hothers, hcs⟩ => by
    obtain ⟨w, hw, hvalue⟩ := padded_exists (exists_isText v) hvalue
    obtain ⟨ns, hns, hothers⟩ := exists_spellsMembers ms _ hothers
    exact ⟨(k, w) :: ns, .cons ⟨rfl, hw⟩ hns, _, _, _, hkey, hvalue, hothers, hcs⟩

end

end Json

namespace Scene

/-- A text whose numbers are small is accepted as a scene exactly when the grammar says that its
value is this scene. The numbers of the value do not count, so they need not be those of the
text. -/
theorem parse_eq_ok_iff_of_small {text : String} {v : Json}
    (htext : Padded (Spells IsSmallNumeral v) text.toList) (hdepth : v.depth ≤ 127)
    {scene : Scene} : Scene.parse text = .ok scene ↔ IsScene v scene := by
  obtain ⟨w, hsame, htext⟩ := padded_exists (exists_isText v) htext
  -- the reader is faithful to `w`, whose numbers are those of the text
  have hparse : Scene.parse text = .ok scene ↔ IsScene w scene :=
    (faithful_reader.parse_ok_iff htext (hsame.depth_eq ▸ hdepth)).trans
      fromValue_scene_eq_ok_iff
  rw [hparse]
  exact ⟨fun h => IsScene.ignoresNumbers hsame.symm h, fun h => IsScene.ignoresNumbers hsame h⟩

theorem isSmall_smallNumeral : smallNumeral.IsSmall where
  magnitude_le := by
    have hdigits : digitsValue (smallNumeral.whole ++ smallNumeral.fraction) = 125 := by decide
    have hpower : (smallNumeral.exponent.map Exponent.value).getD 0 -
        smallNumeral.fraction.length = 2 := by decide
    have hroom : (2 : ℚ) ^ 14 ≤ 2 ^ 1021 := pow_le_pow_right₀ (by norm_num) (by norm_num)
    rw [NumberLiteral.magnitude, hdigits, hpower]
    refine le_trans ?_ hroom
    norm_num
  exponent_lt := by
    intro e he
    obtain rfl := Option.some.inj he
    decide +kernel

/-- The text that cannot be read for its large number, with another number in the place of that. -/
def smallText : String :=
  "\x7b\"version\":\"1\",\"parts\":[\x7b\"kind\":\"IMAGE_CHANGE\",\"imageChangeRequest\":" ++
    "\x7b\"n\":-12.5e3\x7d\x7d]\x7d"

theorem spells_smallText :
    Padded (Spells IsSmallNumeral largeValue) smallText.toList := by
  refine padded_self ⟨_, _, _, padded_self (spellsString_stringLiteral "version"),
    padded_self (spellsString_stringLiteral "1"), ⟨_, _, _,
    padded_self (spellsString_stringLiteral "parts"), padded_self ⟨_, _, padded_self ⟨_, _, _,
      padded_self (spellsString_stringLiteral "kind"),
      padded_self (spellsString_stringLiteral "IMAGE_CHANGE"), ⟨_, _, _,
      padded_self (spellsString_stringLiteral "imageChangeRequest"),
      padded_self ⟨_, _, _, padded_self (spellsString_stringLiteral "n"),
        padded_self ⟨smallNumeral, isSmall_smallNumeral, rfl⟩, rfl, rfl⟩, rfl, rfl⟩,
      rfl⟩, rfl, rfl⟩, rfl, rfl⟩, ?_⟩
  decide +kernel

theorem parse_smallText :
    Scene.parse smallText = .ok ⟨"1", [.imageChange ⟨"", ""⟩], none⟩ :=
  (parse_eq_ok_iff_of_small spells_smallText (by decide)).mpr isScene_largeValue

end Scene

end SceneScript
