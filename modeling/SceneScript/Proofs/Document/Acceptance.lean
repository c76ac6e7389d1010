import Mathlib.Data.List.Perm.Basic
import SceneScript.Document.Decode
import SceneScript.Proofs.Document.Grammar
import SceneScript.Proofs.Json.Tagged
import SceneScript.Proofs.Scene.Valid

/-!
The readers of documents against the grammar: each accepts the values of its kind and no others,
and makes of them what they are.
-/
namespace SceneScript

open Json

/-! Lines, which are collected member by member -/

namespace LineDraft

def members (draft : LineDraft) : List (String × String) :=
  draft.spoken.toList ++ draft.image.toList.map fun image => (imageKey, image)

/-- The image is kept apart from what is spoken. -/
def Apart (draft : LineDraft) : Prop := ∀ p ∈ draft.spoken, p.1 ≠ imageKey

/-- A draft takes in one image and one member of any other name. -/
theorem add_eq_ok_iff {draft draft' : LineDraft} {key value : String} :
    draft.add key value = .ok draft' ↔
      (key = imageKey ∧ draft.image = none ∧ draft' = ⟨draft.spoken, some value⟩) ∨
      (key ≠ imageKey ∧ draft.spoken = none ∧ draft' = ⟨some (key, value), draft.image⟩) := by
  unfold add
  by_cases hkey : key = imageKey
  · cases draft.image <;> simp [hkey, eq_comm]
  · cases draft.spoken <;> simp [hkey, eq_comm]

theorem filter_image_members {draft : LineDraft} (h : draft.Apart) :
    draft.members.filter (fun m => m.1 = imageKey) =
      draft.image.toList.map fun image => (imageKey, image) := by
  obtain ⟨spoken, image⟩ := draft
  cases spoken with
  | none => cases image <;> simp [members]
  | some p =>
    have hp : p.1 ≠ imageKey := h p rfl
    cases image <;> simp [members, hp]

theorem filter_spoken_members {draft : LineDraft} (h : draft.Apart) :
    draft.members.filter (fun m => m.1 ≠ imageKey) = draft.spoken.toList := by
  obtain ⟨spoken, image⟩ := draft
  cases spoken with
  | none => cases image <;> simp [members]
  | some p =>
    have hp : p.1 ≠ imageKey := h p rfl
    cases image <;> simp [members, hp]

/-- A draft is known from its members, in whatever order they are. -/
theorem eq_of_perm {draft draft' : LineDraft} (hdraft : draft.Apart) (hdraft' : draft'.Apart)
    (h : draft.members.Perm draft'.members) : draft = draft' := by
  have himage := h.filter fun m => decide (m.1 = imageKey)
  have hspoken := h.filter fun m => decide (m.1 ≠ imageKey)
  rw [filter_image_members hdraft, filter_image_members hdraft'] at himage
  rw [filter_spoken_members hdraft, filter_spoken_members hdraft'] at hspoken
  obtain ⟨spoken, image⟩ := draft
  obtain ⟨spoken', image'⟩ := draft'
  obtain rfl : spoken = spoken' := by
    cases spoken <;> cases spoken' <;> simp_all
  obtain rfl : image = image' := by
    cases image <;> cases image' <;> simp_all
  rfl

/-- A draft that takes in a member has that member and those it had. -/
theorem perm_of_add {draft draft' : LineDraft} {m : String × String} (hdraft : draft.Apart)
    (h : draft.add m.1 m.2 = .ok draft') :
    draft'.Apart ∧ (draft.members ++ [m]).Perm draft'.members := by
  rcases add_eq_ok_iff.mp h with ⟨hkey, himage, rfl⟩ | ⟨hkey, hspoken, rfl⟩
  · exact ⟨hdraft, by simp [members, himage, ← hkey]⟩
  · refine ⟨?_, by simp [members, hspoken, List.perm_append_singleton]⟩
    intro p hp
    obtain rfl : m = p := by simpa using hp
    exact hkey

/-- A member that fits beside others can be taken in. -/
theorem exists_add {draft draft' : LineDraft} {m : String × String}
    {ms : List (String × String)} (hdraft : draft.Apart) (hdraft' : draft'.Apart)
    (h : (draft.members ++ m :: ms).Perm draft'.members) :
    ∃ next, draft.add m.1 m.2 = .ok next := by
  by_cases hkey : m.1 = imageKey
  · have himages := (h.filter fun m => decide (m.1 = imageKey)).length_eq
    rw [List.filter_append, filter_image_members hdraft, filter_image_members hdraft'] at himages
    cases himage : draft.image with
    | none => exact ⟨_, add_eq_ok_iff.mpr (Or.inl ⟨hkey, himage, rfl⟩)⟩
    | some image =>
      cases himage' : draft'.image <;> simp [himage, himage', hkey] at himages
  · have hspokens := (h.filter fun m => decide (m.1 ≠ imageKey)).length_eq
    rw [List.filter_append, filter_spoken_members hdraft, filter_spoken_members hdraft']
      at hspokens
    cases hspoken : draft.spoken with
    | none => exact ⟨_, add_eq_ok_iff.mpr (Or.inr ⟨hkey, hspoken, rfl⟩)⟩
    | some p =>
      cases hspoken' : draft'.spoken <;> simp [hspoken, hspoken', hkey] at hspokens

/-- A draft takes in members when there is at most one image and one other member in all. -/
theorem foldlM_add_eq_ok_iff {draft draft' : LineDraft} (hdraft : draft.Apart)
    {ms : List (String × String)} :
    ms.foldlM (fun draft m => draft.add m.1 m.2) draft = .ok draft' ↔
      draft'.Apart ∧ (draft.members ++ ms).Perm draft'.members := by
  induction ms generalizing draft with
  | nil =>
    simp only [List.foldlM_nil, pure, Except.pure, Except.ok.injEq, List.append_nil]
    constructor
    · intro h
      subst h
      exact ⟨hdraft, List.Perm.refl _⟩
    · intro h
      obtain ⟨hdraft', hperm⟩ := h
      exact eq_of_perm hdraft hdraft' hperm
  | cons m ms ih =>
    rw [List.foldlM_cons, except_bind_eq_ok_iff, List.append_cons]
    constructor
    · intro h
      obtain ⟨next, hadd, hrest⟩ := h
      obtain ⟨hnext, hperm⟩ := perm_of_add hdraft hadd
      obtain ⟨hdraft', hothers⟩ := (ih hnext).mp hrest
      exact ⟨hdraft', (hperm.append_right ms).trans hothers⟩
    · intro h
      obtain ⟨hdraft', hothers⟩ := h
      obtain ⟨next, hadd⟩ := exists_add hdraft hdraft' (by simpa using hothers)
      obtain ⟨hnext, hperm⟩ := perm_of_add hdraft hadd
      exact ⟨next, hadd, (ih hnext).mpr
        ⟨hdraft', (hperm.append_right ms).symm.trans hothers⟩⟩

/-- A draft is a line if nothing is missing or empty in it. -/
theorem finish_eq_ok_iff {draft : LineDraft} (h : draft.Apart) {line : Line} :
    draft.finish = .ok line ↔
      line.Valid ∧ draft = ⟨some (line.speaker, line.text), line.image⟩ := by
  obtain ⟨spoken, image⟩ := draft
  cases spoken with
  | none => simp [finish]
  | some p =>
    obtain ⟨speaker, text⟩ := p
    have hkey : speaker ≠ imageKey := h (speaker, text) rfl
    simp only [finish]
    constructor
    · intro hline
      split at hline
      · simp at hline
      split at hline
      · simp at hline
      split at hline
      · simp at hline
      · rename_i hspeaker htext himage
        obtain rfl : ⟨speaker, text, image⟩ = line := by simpa using hline
        exact ⟨⟨hspeaker, hkey, htext, himage⟩, rfl⟩
    · intro h
      obtain ⟨⟨hspeaker, _, htext, himage⟩, heq⟩ := h
      simp only [mk.injEq, Option.some.injEq, Prod.mk.injEq] at heq
      obtain ⟨⟨rfl, rfl⟩, rfl⟩ := heq
      simp [hspeaker, htext, himage]

end LineDraft

def Line.texts (line : Line) : List (String × String) :=
  (line.speaker, line.text) :: line.image.toList.map fun image => (imageKey, image)

/-- Members make a line if they are those of a well-formed line in any order. -/
theorem Line.ofMembers_eq_ok_iff {ms : List (String × String)} {line : Line} :
    Line.ofMembers ms = .ok line ↔ line.Valid ∧ ms.Perm line.texts := by
  have hstart : ({} : LineDraft).Apart := by simp [LineDraft.Apart]
  rw [Line.ofMembers, except_bind_eq_ok_iff]
  constructor
  · intro h
    obtain ⟨draft, hdraft, hfinish⟩ := h
    obtain ⟨hapart, hperm⟩ := (LineDraft.foldlM_add_eq_ok_iff hstart).mp hdraft
    obtain ⟨hvalid, rfl⟩ := (LineDraft.finish_eq_ok_iff hapart).mp hfinish
    exact ⟨hvalid, hperm⟩
  · intro h
    obtain ⟨hvalid, hperm⟩ := h
    have hapart : LineDraft.Apart ⟨some (line.speaker, line.text), line.image⟩ := by
      intro p hp
      obtain rfl : (line.speaker, line.text) = p := by simpa using hp
      exact hvalid.speaker_ne_imageKey
    exact ⟨_, (LineDraft.foldlM_add_eq_ok_iff hstart).mpr ⟨hapart, hperm⟩,
      (LineDraft.finish_eq_ok_iff hapart).mpr ⟨hvalid, rfl⟩⟩

/-- The grammar and the members of well-formed lines say the same. -/
theorem isLine_iff {v : Json} {line : Line} :
    IsLine v line ↔
      line.Valid ∧ ∃ ms, v = .object ms ∧
        ms.Perm (line.texts.map fun t => (t.1, .string t.2)) := by
  constructor
  · intro h
    cases h with
    | spoken hspeaker hkey htext =>
      exact ⟨⟨hspeaker, hkey, htext, by simp⟩, _, rfl, List.Perm.refl _⟩
    | shown hspeaker hkey htext himage hms =>
      exact ⟨⟨hspeaker, hkey, htext, by simpa using himage⟩, _, rfl, hms⟩
  · intro h
    obtain ⟨⟨hspeaker, hkey, htext, himage⟩, ms, rfl, hms⟩ := h
    obtain ⟨speaker, text, image⟩ := line
    cases image with
    | none =>
      obtain rfl : ms = [(speaker, .string text)] := List.perm_singleton.mp hms
      exact .spoken hspeaker hkey htext
    | some image => exact .shown hspeaker hkey htext (by simpa using himage) hms

def IsTextMember (m : String × Json) (u : String × String) : Prop := m = (u.1, .string u.2)

/-- Members that are texts, up to their order. -/
theorem perm_texts_iff {ms : List (String × Json)} {ts : List (String × String)} :
    ms.Perm (ts.map fun t => (t.1, .string t.2)) ↔
      ∃ us, List.Forall₂ IsTextMember ms us ∧ us.Perm ts := by
  constructor
  · intro h
    have hself : List.Forall₂ IsTextMember (ts.map fun t => (t.1, .string t.2)) ts := by
      rw [List.forall₂_map_left_iff]
      exact List.forall₂_same.mpr fun _ _ => rfl
    obtain ⟨us, hus, hperm⟩ := List.perm_comp_forall₂ h hself
    exact ⟨us, hus, hperm⟩
  · intro h
    obtain ⟨us, hus, hperm⟩ := h
    have heq : ms = us.map fun u => (u.1, .string u.2) := by
      rw [← List.forall₂_eq_eq_eq, List.forall₂_map_right_iff]
      exact hus
    rw [heq]
    exact hperm.map _

/-- A draft is made of members that are all strings. -/
theorem foldlM_member_eq_ok_iff {ms : List (String × Json)} {draft draft' : LineDraft} :
    ms.foldlM (fun draft m => do
        let value ← Reader.string.fromValue m.2
        (draft.add m.1 value).mapError LineFault.toUnsuitable) draft = .ok draft' ↔
      ∃ us, List.Forall₂ IsTextMember ms us ∧
        us.foldlM (fun draft u => draft.add u.1 u.2) draft = .ok draft' := by
  induction ms generalizing draft with
  | nil =>
    simp [pure, Except.pure]
  | cons m ms ih =>
    simp only [List.foldlM_cons, except_bind_eq_ok_iff, Reader.fromValue_string_eq_ok_iff, ih,
      mapError_eq_ok_iff]
    constructor
    · intro h
      obtain ⟨next, ⟨value, hvalue, hadd⟩, us, hus, hrest⟩ := h
      refine ⟨(m.1, value) :: us, List.Forall₂.cons (show m = _ by rw [← hvalue]) hus, ?_⟩
      rw [List.foldlM_cons, except_bind_eq_ok_iff]
      exact ⟨next, hadd, hrest⟩
    · intro h
      obtain ⟨us, hus, hfold⟩ := h
      cases hus with
      | cons hm hus =>
        rw [List.foldlM_cons, except_bind_eq_ok_iff] at hfold
        obtain ⟨next, hadd, hrest⟩ := hfold
        obtain rfl := hm
        exact ⟨next, ⟨_, rfl, hadd⟩, _, hus, hrest⟩

theorem fromValue_line_eq_ok_iff {v : Json} {line : Line} :
    Line.reader.fromValue v = .ok line ↔ IsLine v line := by
  rw [isLine_iff]
  cases v with
  | object ms =>
    simp only [Line.reader, Reader.entries]
    rw [except_bind_eq_ok_iff]
    simp only [foldlM_member_eq_ok_iff, mapError_eq_ok_iff, Json.object.injEq, exists_eq_left',
      perm_texts_iff]
    constructor
    · intro h
      obtain ⟨draft, ⟨us, hus, hfold⟩, hfinish⟩ := h
      have hline : Line.ofMembers us = .ok line := by
        rw [Line.ofMembers, except_bind_eq_ok_iff]
        exact ⟨draft, hfold, hfinish⟩
      obtain ⟨hvalid, hperm⟩ := Line.ofMembers_eq_ok_iff.mp hline
      exact ⟨hvalid, us, hus, hperm⟩
    · intro h
      obtain ⟨hvalid, us, hus, hperm⟩ := h
      have hline := Line.ofMembers_eq_ok_iff.mpr ⟨hvalid, hperm⟩
      rw [Line.ofMembers, except_bind_eq_ok_iff] at hline
      obtain ⟨draft, hfold, hfinish⟩ := hline
      exact ⟨draft, ⟨us, hus, hfold⟩, hfinish⟩
  | _ => simp [Line.reader, Reader.entries]

theorem fromValue_block_eq_ok_iff {v : Json} {lines : List Line} :
    blockReader.fromValue v = .ok lines ↔ IsBlock v lines := by
  simp only [blockReader, Reader.fromValue_list_eq_ok_iff, fromValue_line_eq_ok_iff, IsBlock]

theorem fromValue_choiceName_eq_ok_iff {v : Json} {name : String} :
    choiceName.fromValue v = .ok name ↔ v = .string name ∧ name ≠ "" := by
  simp only [choiceName, Reader.fromValue_filterMap_eq_ok_iff, Reader.fromValue_string_eq_ok_iff]
  constructor
  · intro h
    obtain ⟨s, rfl, hs⟩ := h
    split at hs
    · simp at hs
    · rename_i hne
      obtain rfl : s = name := by simpa using hs
      exact ⟨rfl, hne⟩
  · intro h
    obtain ⟨rfl, hne⟩ := h
    exact ⟨name, rfl, by simp [hne]⟩

/-- A choice is read in both forms, and an empty name is refused in both. -/
theorem fromValue_choice_eq_ok_iff {v : Json} {choice : Choice} :
    Choice.reader.fromValue v = .ok choice ↔ IsChoice v choice := by
  rw [Choice.reader, Shape.fromValue_eq_ok_iff (by decide)]
  simp only [Choice.shape, Shape.completes_field_iff, Shape.completes_nil_iff,
    Shape.inOrder_field_iff, Shape.inOrder_nil_iff, fromValue_choiceName_eq_ok_iff,
    fromValue_block_eq_ok_iff]
  constructor
  · intro h
    rcases h with ⟨ms, rfl, _, _, name, hname, ⟨rfl, hne⟩, block, lines, hdialogue, hblock, rfl⟩ |
      ⟨_, rfl, _, name, _, rfl, ⟨rfl, hne⟩, block, lines, _, rfl, hblock, rfl, rfl⟩
    · exact .object hname hne hdialogue hblock
    · exact .list hne hblock
  · intro h
    cases h with
    | object hname hne hdialogue hblock =>
      exact Or.inl ⟨_, rfl, Shape.known_of_open rfl _, _, _, hname, ⟨rfl, hne⟩, _, _, hdialogue,
        hblock, rfl⟩
    | list hne hblock =>
      exact Or.inr ⟨_, rfl, _, _, _, rfl, ⟨rfl, hne⟩, _, _, _, rfl, hblock, rfl, rfl⟩

theorem fromValue_choices_eq_ok_iff {v : Json} {choices : List Choice} :
    choicesReader.fromValue v = .ok choices ↔ IsChoices v choices := by
  simp only [choicesReader, Reader.fromValue_list_eq_ok_iff, fromValue_choice_eq_ok_iff, IsChoices]

theorem fromValue_flag_eq_ok_iff {v : Json} {flag : Bool} :
    flagReader.fromValue v = .ok flag ↔ IsFlag v flag := by
  simp only [flagReader, Reader.fromValue_filterMap_eq_ok_iff, Reader.fromValue_string_eq_ok_iff]
  constructor
  · intro h
    obtain ⟨s, rfl, hs⟩ := h
    split at hs
    · rename_i hyes
      obtain rfl : true = flag := by simpa using hs
      exact hyes ▸ .yes
    · split at hs
      · rename_i hno
        obtain rfl : false = flag := by simpa using hs
        exact hno ▸ .no
      · simp at hs
  · intro h
    cases h with
    | yes => exact ⟨"true", rfl, rfl⟩
    | no => exact ⟨"false", rfl, rfl⟩

theorem fromValue_settings_eq_ok_iff {v : Json} {flag : Bool} :
    settingsReader.fromValue v = .ok flag ↔ IsSettings v flag := by
  rw [settingsReader, Shape.fromValue_eq_ok_iff (by decide)]
  simp only [settingsShape, Shape.completes_field_iff, Shape.completes_nil_iff,
    Shape.inOrder_field_iff, Shape.inOrder_nil_iff, fromValue_flag_eq_ok_iff]
  constructor
  · intro h
    rcases h with ⟨ms, rfl, _, w, _, hwait, hflag, rfl⟩ | ⟨_, rfl, w, _, _, rfl, hflag, rfl, rfl⟩
    · exact .object hwait hflag
    · exact .list hflag
  · intro h
    cases h with
    | object hwait hflag =>
      exact Or.inl ⟨_, rfl, Shape.known_of_open rfl _, _, _, hwait, hflag, rfl⟩
    | list hflag => exact Or.inr ⟨_, rfl, _, _, _, rfl, hflag, rfl, rfl⟩

/-- Both paths may be left out in the object form, and from the end in the list form. -/
theorem fromValue_imageChange_eq_ok_iff {v : Json} {change : ImageChange} :
    ImageChange.reader.fromValue v = .ok change ↔ IsImageChange v change := by
  rw [ImageChange.reader, Shape.fromValue_eq_ok_iff (by decide)]
  simp only [ImageChange.shape, Shape.completes_optionalField_iff, Shape.completes_nil_iff,
    Shape.inOrder_optionalField_iff, Shape.inOrder_nil_iff, Reader.fromValue_string_eq_ok_iff]
  constructor
  · intro h
    rcases h with ⟨ms, rfl, _, hpaths⟩ | ⟨vs, rfl, hpaths⟩
    · rcases hpaths with ⟨_, b, hb, rfl, ⟨_, c, hc, rfl, rfl⟩ | ⟨hc, rfl⟩⟩ |
        ⟨hb, ⟨_, c, hc, rfl, rfl⟩ | ⟨hc, rfl⟩⟩
      · exact .object (Or.inl hb) (Or.inl hc)
      · exact .object (Or.inl hb) (Or.inr ⟨hc, rfl⟩)
      · exact .object (Or.inr ⟨hb, rfl⟩) (Or.inl hc)
      · exact .object (Or.inr ⟨hb, rfl⟩) (Or.inr ⟨hc, rfl⟩)
    · rcases hpaths with ⟨_, b, _, rfl, rfl, ⟨_, c, _, rfl, rfl, rfl, rfl⟩ | ⟨rfl, _, rfl⟩⟩ |
        ⟨rfl, ⟨_, _, _, h, _⟩ | ⟨_, _, rfl⟩⟩
      · exact .both
      · exact .first
      · simp at h
      · exact .neither
  · intro h
    cases h with
    | object hb hc =>
      refine Or.inl ⟨_, rfl, Shape.known_of_open rfl _, ?_⟩
      rcases hb with hb | ⟨hb, rfl⟩
      · rcases hc with hc | ⟨hc, rfl⟩
        · exact Or.inl ⟨_, _, hb, rfl, Or.inl ⟨_, _, hc, rfl, rfl⟩⟩
        · exact Or.inl ⟨_, _, hb, rfl, Or.inr ⟨hc, rfl⟩⟩
      · rcases hc with hc | ⟨hc, rfl⟩
        · exact Or.inr ⟨hb, Or.inl ⟨_, _, hc, rfl, rfl⟩⟩
        · exact Or.inr ⟨hb, Or.inr ⟨hc, rfl⟩⟩
    | neither => exact Or.inr ⟨_, rfl, Or.inr ⟨rfl, Or.inr ⟨trivial, trivial, rfl⟩⟩⟩
    | first =>
      exact Or.inr ⟨_, rfl, Or.inl ⟨_, _, _, rfl, rfl, Or.inr ⟨rfl, trivial, rfl⟩⟩⟩
    | both =>
      exact Or.inr ⟨_, rfl, Or.inl ⟨_, _, _, rfl, rfl, Or.inl ⟨_, _, _, rfl, rfl, rfl, rfl⟩⟩⟩

namespace Part

theorem fromValue_keyword_eq_ok_iff {v : Json} {payload : Reader Part} :
    tagged.keyword.fromValue v = .ok payload ↔
      ∃ kind : Kind, v = .string kind.tag ∧ payloadReader kind = payload := by
  rw [Tagged.keyword, Reader.fromValue_keyword_eq_ok_iff]
  constructor
  · intro h
    obtain ⟨s, rfl, hs⟩ := h
    obtain ⟨before, after, hsplit, _⟩ := List.lookup_eq_some_iff.mp hs
    have hmem : (s, payload) ∈ tagged.variants := by simp [hsplit]
    obtain ⟨kind, _, heq⟩ := List.mem_map.mp hmem
    obtain ⟨rfl, rfl⟩ := Prod.mk.inj heq
    exact ⟨kind, congrArg Json.string kind.written_eq_tag, rfl⟩
  · intro h
    obtain ⟨kind, rfl, rfl⟩ := h
    refine ⟨kind.tag, rfl, ?_⟩
    cases kind <;> rfl

/-- The payload of a kind, in the object form. -/
theorem fromValue_payload_object_iff {kind : Kind} {ms : List (String × Json)} {part : Part} :
    (payloadReader kind).fromValue (.object ms) = .ok part ↔
      part.kind = kind ∧ ∃ payload, IsPayload payload part ∧ ms.Perm payload := by
  constructor
  · intro h
    cases kind with
    | dialogue =>
      obtain ⟨lines, hlines, rfl⟩ := Reader.fromValue_map_eq_ok_iff.mp h
      obtain ⟨hknown, hcompletes⟩ := (Shape.fromValue_object_eq_ok_iff (by decide)).mp hlines
      obtain ⟨v, _, hsole, hblock, rfl⟩ := Shape.completes_field_iff.mp hcompletes
      refine ⟨rfl, _, .dialogue (fromValue_block_eq_ok_iff.mp hblock), ?_⟩
      exact (perm_iff_sole (by simp)).mpr ⟨by simpa using hsole, hknown rfl⟩
    | branch =>
      obtain ⟨payload, hpayload, rfl⟩ := Reader.fromValue_map_eq_ok_iff.mp h
      obtain ⟨hknown, hcompletes⟩ := (Shape.fromValue_object_eq_ok_iff (by decide)).mp hpayload
      obtain ⟨v, _, hbranch, hchoices, hcompletes⟩ := Shape.completes_field_iff.mp hcompletes
      obtain ⟨w, _, hoptions, hsettings, rfl⟩ := Shape.completes_field_iff.mp hcompletes
      refine ⟨rfl, _, .branch (fromValue_choices_eq_ok_iff.mp hchoices)
        (fromValue_settings_eq_ok_iff.mp hsettings), ?_⟩
      exact (perm_iff_sole (by simp)).mpr ⟨by simpa using ⟨hbranch, hoptions⟩, hknown rfl⟩
    | imageChange =>
      obtain ⟨change, hchange, rfl⟩ := Reader.fromValue_map_eq_ok_iff.mp h
      obtain ⟨hknown, hcompletes⟩ := (Shape.fromValue_object_eq_ok_iff (by decide)).mp hchange
      obtain ⟨v, _, hsole, hrequest, rfl⟩ := Shape.completes_field_iff.mp hcompletes
      refine ⟨rfl, _, .imageChange (fromValue_imageChange_eq_ok_iff.mp hrequest), ?_⟩
      exact (perm_iff_sole (by simp)).mpr ⟨by simpa using hsole, hknown rfl⟩
  · intro h
    obtain ⟨rfl, payload, hpayload, hperm⟩ := h
    cases hpayload with
    | dialogue hblock =>
      obtain ⟨hsole, hknown⟩ := (perm_iff_sole (by simp)).mp hperm
      refine Reader.fromValue_map_eq_ok_iff.mpr ⟨_, ?_, rfl⟩
      refine (Shape.fromValue_object_eq_ok_iff (by decide)).mpr ⟨fun _ => hknown, ?_⟩
      exact Shape.completes_field_iff.mpr ⟨_, _, hsole ("dialogue", _) (by simp),
        fromValue_block_eq_ok_iff.mpr hblock, rfl⟩
    | branch hchoices hsettings =>
      obtain ⟨hsole, hknown⟩ := (perm_iff_sole (by simp)).mp hperm
      refine Reader.fromValue_map_eq_ok_iff.mpr ⟨(_, _), ?_, rfl⟩
      refine (Shape.fromValue_object_eq_ok_iff (by decide)).mpr ⟨fun _ => hknown, ?_⟩
      refine Shape.completes_field_iff.mpr ⟨_, _, hsole ("branch", _) (by simp),
        fromValue_choices_eq_ok_iff.mpr hchoices, ?_⟩
      exact Shape.completes_field_iff.mpr ⟨_, _, hsole ("options", _) (by simp),
        fromValue_settings_eq_ok_iff.mpr hsettings, rfl⟩
    | imageChange hchange =>
      obtain ⟨hsole, hknown⟩ := (perm_iff_sole (by simp)).mp hperm
      refine Reader.fromValue_map_eq_ok_iff.mpr ⟨_, ?_, rfl⟩
      refine (Shape.fromValue_object_eq_ok_iff (by decide)).mpr ⟨fun _ => hknown, ?_⟩
      exact Shape.completes_field_iff.mpr ⟨_, _, hsole ("imageChangeRequest", _) (by simp),
        fromValue_imageChange_eq_ok_iff.mpr hchange, rfl⟩

/-- The payload of a kind, in the list form. -/
theorem fromValue_payload_array_iff {kind : Kind} {vs : List Json} {part : Part} :
    (payloadReader kind).fromValue (.array vs) = .ok part ↔
      part.kind = kind ∧ ∃ payload, IsPayload payload part ∧ vs = payload.map Prod.snd := by
  constructor
  · intro h
    cases kind with
    | dialogue =>
      obtain ⟨lines, hlines, rfl⟩ := Reader.fromValue_map_eq_ok_iff.mp h
      obtain ⟨v, _, ws, rfl, hblock, horder⟩ :=
        Shape.inOrder_field_iff.mp (Shape.inOrderOfValue_eq_ok_iff.mp hlines)
      obtain ⟨rfl, rfl⟩ := Shape.inOrder_nil_iff.mp horder
      exact ⟨rfl, _, .dialogue (fromValue_block_eq_ok_iff.mp hblock), rfl⟩
    | branch =>
      obtain ⟨payload, hpayload, rfl⟩ := Reader.fromValue_map_eq_ok_iff.mp h
      obtain ⟨v, _, ws, rfl, hchoices, horder⟩ :=
        Shape.inOrder_field_iff.mp (Shape.inOrderOfValue_eq_ok_iff.mp hpayload)
      obtain ⟨w, _, ws, rfl, hsettings, horder⟩ := Shape.inOrder_field_iff.mp horder
      obtain ⟨rfl, rfl⟩ := Shape.inOrder_nil_iff.mp horder
      exact ⟨rfl, _, .branch (fromValue_choices_eq_ok_iff.mp hchoices)
        (fromValue_settings_eq_ok_iff.mp hsettings), rfl⟩
    | imageChange =>
      obtain ⟨change, hchange, rfl⟩ := Reader.fromValue_map_eq_ok_iff.mp h
      obtain ⟨v, _, ws, rfl, hrequest, horder⟩ :=
        Shape.inOrder_field_iff.mp (Shape.inOrderOfValue_eq_ok_iff.mp hchange)
      obtain ⟨rfl, rfl⟩ := Shape.inOrder_nil_iff.mp horder
      exact ⟨rfl, _, .imageChange (fromValue_imageChange_eq_ok_iff.mp hrequest), rfl⟩
  · intro h
    obtain ⟨rfl, payload, hpayload, rfl⟩ := h
    cases hpayload with
    | dialogue hblock =>
      refine Reader.fromValue_map_eq_ok_iff.mpr ⟨_, ?_, rfl⟩
      refine Shape.inOrderOfValue_eq_ok_iff.mpr (Shape.inOrder_field_iff.mpr ?_)
      exact ⟨_, _, _, rfl, fromValue_block_eq_ok_iff.mpr hblock, rfl⟩
    | branch hchoices hsettings =>
      refine Reader.fromValue_map_eq_ok_iff.mpr ⟨(_, _), ?_, rfl⟩
      refine Shape.inOrderOfValue_eq_ok_iff.mpr (Shape.inOrder_field_iff.mpr ?_)
      refine ⟨_, _, _, rfl, fromValue_choices_eq_ok_iff.mpr hchoices, ?_⟩
      exact Shape.inOrder_field_iff.mpr
        ⟨_, _, _, rfl, fromValue_settings_eq_ok_iff.mpr hsettings, rfl⟩
    | imageChange hchange =>
      refine Reader.fromValue_map_eq_ok_iff.mpr ⟨_, ?_, rfl⟩
      refine Shape.inOrderOfValue_eq_ok_iff.mpr (Shape.inOrder_field_iff.mpr ?_)
      exact ⟨_, _, _, rfl, fromValue_imageChange_eq_ok_iff.mpr hchange, rfl⟩

/-- No payload has a member of the name that tells the kind. -/
theorem IsPayload.lacks_kind {payload : List (String × Json)} {part : Part}
    (h : IsPayload payload part) : Lacks payload "kind" := by
  cases h <;> simp [Lacks]

/-- The kind that is told decides how the rest of a part is read. -/
theorem fromValue_reader_eq_ok_iff {v : Json} {part : Part} :
    reader.fromValue v = .ok part ↔ IsPart v part := by
  cases v with
  | object ms =>
    rw [reader, Tagged.fromValue_object_eq_ok_iff]
    constructor
    · intro h
      obtain ⟨_, payload, hsole, hkeyword, hpart⟩ := h
      obtain ⟨kind, rfl, rfl⟩ := fromValue_keyword_eq_ok_iff.mp hkeyword
      obtain ⟨rfl, payload, hpayload, hperm⟩ := fromValue_payload_object_iff.mp hpart
      exact .object hpayload (hsole.perm.trans (hperm.cons _))
    · intro h
      cases h with
      | object hpayload hms =>
        have hlacks := IsPayload.lacks_kind hpayload
        refine ⟨_, _, (sole_cons_of_lacks _ hlacks).of_perm hms.symm,
          fromValue_keyword_eq_ok_iff.mpr ⟨_, rfl, rfl⟩, ?_⟩
        refine fromValue_payload_object_iff.mpr ⟨rfl, _, hpayload, ?_⟩
        have hothers := hms.filter fun m => decide (m.1 ≠ "kind")
        rw [List.filter_cons_of_neg (by simp), hlacks.filter_ne] at hothers
        exact hothers
  | array vs =>
    rw [reader, Tagged.fromValue_array_eq_ok_iff]
    constructor
    · intro h
      obtain ⟨_, ws, payload, rfl, hkeyword, hpart⟩ := h
      obtain ⟨kind, rfl, rfl⟩ := fromValue_keyword_eq_ok_iff.mp hkeyword
      obtain ⟨rfl, payload, hpayload, rfl⟩ := fromValue_payload_array_iff.mp hpart
      exact .list hpayload
    · intro h
      cases h with
      | list hpayload =>
        exact ⟨_, _, _, rfl, fromValue_keyword_eq_ok_iff.mpr ⟨_, rfl, rfl⟩,
          fromValue_payload_array_iff.mpr ⟨rfl, _, hpayload, rfl⟩⟩
  | _ =>
    constructor
    · intro h
      simp [reader, Tagged.reader, Tagged.variantOfValue, except_bind_eq_ok_iff] at h
    · intro h
      cases h

end Part

/-- The values that a scene is read from are those that the grammar says are scenes. -/
theorem fromValue_scene_eq_ok_iff {v : Json} {scene : Scene} :
    Scene.reader.fromValue v = .ok scene ↔ IsScene v scene := by
  rw [Scene.reader, Shape.fromValue_eq_ok_iff (by decide)]
  simp only [Scene.shape, Shape.completes_field_iff, Shape.completes_nil_iff,
    Shape.inOrder_field_iff, Shape.inOrder_nil_iff, Reader.fromValue_string_eq_ok_iff,
    Reader.fromValue_list_eq_ok_iff, Part.fromValue_reader_eq_ok_iff]
  constructor
  · intro h
    rcases h with ⟨ms, rfl, _, _, version, hversion, rfl, _, parts, hparts, ⟨items, rfl, hitems⟩,
      rfl⟩ | ⟨_, rfl, _, version, _, rfl, rfl, _, parts, _, rfl, ⟨items, rfl, hitems⟩, rfl, rfl⟩
    · exact .object hversion hparts hitems
    · exact .list hitems
  · intro h
    cases h with
    | object hversion hparts hitems =>
      exact Or.inl ⟨_, rfl, Shape.known_of_open rfl _, _, _, hversion, rfl, _, _, hparts,
        ⟨_, rfl, hitems⟩, rfl⟩
    | list hitems =>
      exact Or.inr ⟨_, rfl, _, _, _, rfl, rfl, _, _, _, rfl, ⟨_, rfl, hitems⟩, rfl, rfl⟩

end SceneScript
