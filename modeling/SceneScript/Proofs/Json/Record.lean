import Mathlib.Data.List.Induction
import SceneScript.Proofs.Fallible
import SceneScript.Proofs.Json.Members
import SceneScript.Proofs.Json.Reader

/-!
Values of known shapes. What a record is read as is told by its members as a set: a field that is
given once and can be read, or is missing and optional. Neither the order of the members nor, in
an open record, what else stands among them makes a difference.
-/
namespace SceneScript

namespace Json

variable {α σ : Type}

namespace Reader

theorem fromValue_map_eq_ok_iff {β : Type} {r : Reader α} {f : α → β} {v : Json} {b : β} :
    (r.map f).fromValue v = .ok b ↔ ∃ a, r.fromValue v = .ok a ∧ f a = b := by
  simp only [Reader.map]
  cases r.fromValue v <;> simp [Functor.map, Except.map]

theorem fromValue_filterMap_eq_ok_iff {β : Type} {r : Reader α} {f : α → Except Unsuitable β}
    {v : Json} {b : β} :
    (r.filterMap f).fromValue v = .ok b ↔ ∃ a, r.fromValue v = .ok a ∧ f a = .ok b :=
  except_bind_eq_ok_iff

theorem fromValue_text_eq_ok_iff {expected : String} {f : String → Except Unsuitable α}
    {v : Json} {a : α} :
    (text expected f).fromValue v = .ok a ↔ ∃ s, v = .string s ∧ f s = .ok a := by
  cases v <;> simp [text]

theorem fromValue_string_eq_ok_iff {v : Json} {s : String} :
    string.fromValue v = .ok s ↔ v = .string s := by
  simp [string, fromValue_text_eq_ok_iff]

theorem fromValue_keyword_eq_ok_iff {expected : String} {meanings : List (String × α)} {v : Json}
    {a : α} :
    (keyword expected meanings).fromValue v = .ok a ↔
      ∃ s, v = .string s ∧ meanings.lookup s = some a := by
  rw [keyword, fromValue_text_eq_ok_iff]
  refine exists_congr fun s => and_congr_right fun _ => ?_
  cases meanings.lookup s <;> simp

/-- A list is read when all its items are. -/
theorem fromValue_list_eq_ok_iff {r : Reader α} {v : Json} {as : List α} :
    (list r).fromValue v = .ok as ↔
      ∃ vs, v = .array vs ∧ List.Forall₂ (fun w a => r.fromValue w = .ok a) vs as := by
  cases v <;> simp [list, mapM_eq_ok_iff]

end Reader

namespace Shape

variable {shape : Shape σ}

/-- What a field may put into a record with the given members. -/
def Slot (ms : List (String × Json)) (f : Field σ) : Option (σ → σ) → Prop
  | none => Lacks ms f.name
  | some put => ∃ v, Sole ms f.name v ∧ f.fill.fromValue v = .ok put

def Known (shape : Shape σ) (ms : List (String × Json)) : Prop :=
  shape.isClosed → ∀ m ∈ ms, m.1 ∈ shape.names

def Completes (ms : List (String × Json)) : List (Field σ) → σ → σ → Prop
  | [], s, t => s = t
  | f :: fs, s, t =>
    (∃ v put, Sole ms f.name v ∧ f.fill.fromValue v = .ok put ∧ Completes ms fs (put s) t) ∨
      (f.isRequired = false ∧ Lacks ms f.name ∧ Completes ms fs s t)

def InOrder : List (Field σ) → List Json → σ → σ → Prop
  | [], [], s, t => s = t
  | [], _ :: _, _, _ => False
  | f :: fs, [], s, t => f.isRequired = false ∧ InOrder fs [] s t
  | f :: fs, v :: vs, s, t => ∃ put, f.fill.fromValue v = .ok put ∧ InOrder fs vs (put s) t

theorem Slot.snoc {ms : List (String × Json)} {m : String × Json} {f : Field σ}
    {put : Option (σ → σ)} (h : Slot ms f put) (hm : m.1 ≠ f.name) : Slot (ms ++ [m]) f put := by
  cases put with
  | none => exact lacks_snoc_iff.mpr ⟨h, hm⟩
  | some put =>
    obtain ⟨v, hsole, hfill⟩ := h
    exact ⟨v, sole_snoc_iff.mpr (Or.inl ⟨hsole, hm⟩), hfill⟩

theorem Slot.eq_none {ms : List (String × Json)} {f : Field σ} {put : Option (σ → σ)}
    (h : Slot ms f put) (hlacks : Lacks ms f.name) : put = none := by
  cases put with
  | none => rfl
  | some put =>
    obtain ⟨v, hsole, _⟩ := h
    exact absurd hlacks hsole.not_lacks

/-! Finding the field of a key -/

theorem find_eq_some_of_pairwise {fs : List (Field σ)}
    (hpairs : fs.Pairwise fun f g => f.name ≠ g.name) {f : Field σ} (hf : f ∈ fs) :
    fs.find? (·.name = f.name) = some f := by
  induction fs with
  | nil => simp at hf
  | cons g fs ih =>
    obtain ⟨hg, hfs⟩ := List.pairwise_cons.mp hpairs
    rcases List.mem_cons.mp hf with rfl | hf
    · simp
    · rw [List.find?_cons_of_neg (by simpa using hg f hf)]
      exact ih hfs hf

theorem find_eq_some (hnames : shape.names.Nodup) {f : Field σ} (hf : f ∈ shape.fields) :
    shape.fields.find? (·.name = f.name) = some f :=
  find_eq_some_of_pairwise (List.pairwise_map.mp hnames) hf

/-- A key leads to the field of its name unless that was given before. -/
theorem fieldOf_eq_some_iff (hnames : shape.names.Nodup) {draft : Draft σ} {key : String}
    {f : Field σ} :
    shape.fieldOf draft key = .ok (some f) ↔
      f ∈ shape.fields ∧ f.name = key ∧ draft.lookup key = none := by
  constructor
  · intro h
    have hmem := mem_of_fieldOf h
    unfold fieldOf at h
    split at h
    · rename_i g hfind
      split at h
      · simp at h
      · rename_i hlookup
        obtain rfl : g = f := by simpa using h
        have hname : g.name = key := by simpa using List.find?_some hfind
        exact ⟨hmem, hname, Option.not_isSome_iff_eq_none.mp hlookup⟩
    · split at h <;> simp at h
  · intro h
    obtain ⟨hf, rfl, hlookup⟩ := h
    simp [fieldOf, find_eq_some hnames hf, hlookup]

/-- Only an open record passes over a key, and only one that it does not know. -/
theorem fieldOf_eq_none_iff {draft : Draft σ} {key : String} :
    shape.fieldOf draft key = .ok none ↔ key ∉ shape.names ∧ shape.isClosed = false := by
  have hfind : shape.fields.find? (·.name = key) = none ↔ key ∉ shape.names := by
    simp [names, List.find?_eq_none]
  unfold fieldOf
  split
  · rename_i f hsome
    rw [hsome] at hfind
    split <;> simp_all
  · rename_i hnone
    rw [hnone] at hfind
    cases hclosed : shape.isClosed <;> simp_all

/-- What one more member does to a draft. -/
theorem memberOfValue_eq_ok_iff (hnames : shape.names.Nodup) {draft draft' : Draft σ}
    {m : String × Json} :
    shape.memberOfValue draft m = .ok draft' ↔
      (∃ f ∈ shape.fields, ∃ put, f.name = m.1 ∧ draft.lookup m.1 = none ∧
        f.fill.fromValue m.2 = .ok put ∧ draft' = (m.1, put) :: draft) ∨
      (m.1 ∉ shape.names ∧ shape.isClosed = false ∧ draft' = draft) := by
  unfold memberOfValue
  rw [except_bind_eq_ok_iff]
  constructor
  · intro h
    obtain ⟨found, hfield, hrest⟩ := h
    cases found with
    | none =>
      obtain ⟨hkey, hclosed⟩ := fieldOf_eq_none_iff.mp hfield
      exact Or.inr ⟨hkey, hclosed, by simpa [pure, Except.pure, eq_comm] using hrest⟩
    | some f =>
      obtain ⟨hf, hname, hlookup⟩ := (fieldOf_eq_some_iff hnames).mp hfield
      obtain ⟨put, hfill, heq⟩ := except_bind_eq_ok_iff.mp hrest
      exact Or.inl ⟨f, hf, put, hname, hlookup, hfill,
        by simpa [pure, Except.pure, eq_comm] using heq⟩
  · intro h
    rcases h with ⟨f, hf, put, hname, hlookup, hfill, rfl⟩ | ⟨hkey, hclosed, rfl⟩
    · exact ⟨some f, (fieldOf_eq_some_iff hnames).mpr ⟨hf, hname, hlookup⟩,
        except_bind_eq_ok_iff.mpr ⟨put, hfill, rfl⟩⟩
    · exact ⟨none, fieldOf_eq_none_iff.mpr ⟨hkey, hclosed⟩, rfl⟩

theorem eq_of_name_eq (hnames : shape.names.Nodup) {f g : Field σ} (hf : f ∈ shape.fields)
    (hg : g ∈ shape.fields) (h : f.name = g.name) : f = g := by
  have hfind := find_eq_some hnames hf
  rw [h, find_eq_some hnames hg] at hfind
  simpa [eq_comm] using hfind

/-- After any members the draft tells which fields have been given. -/
theorem slot_of_foldlM (hnames : shape.names.Nodup) {ms : List (String × Json)} {draft : Draft σ}
    (h : ms.foldlM shape.memberOfValue [] = .ok draft) :
    shape.Known ms ∧ ∀ f ∈ shape.fields, Slot ms f (draft.lookup f.name) := by
  induction ms using List.reverseRecOn generalizing draft with
  | nil =>
    obtain rfl : [] = draft := by simpa [pure, Except.pure] using h
    refine ⟨fun _ m hm => absurd hm (by simp), fun f _ => ?_⟩
    intro m hm
    simp at hm
  | append_singleton ms m ih =>
    rw [List.foldlM_append, except_bind_eq_ok_iff] at h
    obtain ⟨before, hbefore, hlast⟩ := h
    obtain ⟨hknown, hslots⟩ := ih hbefore
    have hlast : shape.memberOfValue before m = .ok draft := by simpa using hlast
    rcases (memberOfValue_eq_ok_iff hnames).mp hlast with
      ⟨g, hg, put, hname, hlookup, hfill, rfl⟩ | ⟨hkey, hclosed, rfl⟩
    · refine ⟨?_, ?_⟩
      · intro hclosed n hn
        rcases List.mem_append.mp hn with hn | hn
        · exact hknown hclosed n hn
        · rw [List.mem_singleton.mp hn, ← hname]
          exact List.mem_map_of_mem hg
      · intro f hf
        by_cases hfm : m.1 = f.name
        · obtain rfl : g = f := eq_of_name_eq hnames hg hf (hname.trans hfm)
          have hlacks : Lacks ms g.name := by
            have hslot := hslots g hg
            rw [hname, hlookup] at hslot
            exact hslot
          have hfound : List.lookup g.name ((m.1, put) :: before) = some put := by
            simp [hname]
          rw [hfound]
          exact ⟨m.2, sole_snoc_iff.mpr (Or.inr ⟨hlacks, by rw [hname]⟩), hfill⟩
        · have hother : List.lookup f.name ((m.1, put) :: before) = before.lookup f.name := by
            have hbeq : (f.name == m.1) = false := by simpa using Ne.symm hfm
            simp [List.lookup_cons, hbeq]
          rw [hother]
          exact (hslots f hf).snoc hfm
    · refine ⟨fun hopen => ?_, fun f hf => (hslots f hf).snoc ?_⟩
      · rw [hclosed] at hopen
        exact absurd hopen (by simp)
      · intro hfm
        exact hkey (hfm ▸ List.mem_map_of_mem hf)

/-- Members whose fields can all be read are all taken in. -/
theorem exists_foldlM (hnames : shape.names.Nodup) {ms : List (String × Json)}
    (hknown : shape.Known ms) (hslots : ∀ f ∈ shape.fields, ∃ put, Slot ms f put) :
    ∃ draft, ms.foldlM shape.memberOfValue [] = .ok draft := by
  induction ms using List.reverseRecOn with
  | nil => exact ⟨[], rfl⟩
  | append_singleton ms m ih =>
    have hknown' : shape.Known ms := fun hclosed n hn =>
      hknown hclosed n (List.mem_append_left [m] hn)
    have hslots' : ∀ f ∈ shape.fields, ∃ put, Slot ms f put := by
      intro f hf
      obtain ⟨put, hput⟩ := hslots f hf
      cases put with
      | none => exact ⟨none, (lacks_snoc_iff.mp hput).1⟩
      | some put =>
        obtain ⟨v, hsole, hfill⟩ := hput
        rcases sole_snoc_iff.mp hsole with ⟨hsole, _⟩ | ⟨hlacks, _⟩
        · exact ⟨some put, v, hsole, hfill⟩
        · exact ⟨none, hlacks⟩
    obtain ⟨draft, hdraft⟩ := ih hknown' hslots'
    have hfound := (slot_of_foldlM hnames hdraft).2
    have hlast : ∃ draft', shape.memberOfValue draft m = .ok draft' := by
      by_cases hkey : m.1 ∈ shape.names
      · obtain ⟨f, hf, hname⟩ := List.mem_map.mp hkey
        obtain ⟨put, hput⟩ := hslots f hf
        cases put with
        | none => exact absurd hname.symm (lacks_snoc_iff.mp hput).2
        | some put =>
          obtain ⟨v, hsole, hfill⟩ := hput
          rcases sole_snoc_iff.mp hsole with ⟨_, hne⟩ | ⟨hlacks, rfl⟩
          · exact absurd hname.symm hne
          · have hlookup := (hfound f hf).eq_none hlacks
            exact ⟨_, (memberOfValue_eq_ok_iff hnames).mpr
              (Or.inl ⟨f, hf, put, rfl, hlookup, hfill, rfl⟩)⟩
      · have hclosed : shape.isClosed = false := by
          by_contra hclosed
          exact hkey (hknown (by simpa using hclosed) m (by simp))
        exact ⟨draft, (memberOfValue_eq_ok_iff hnames).mpr (Or.inr ⟨hkey, hclosed, rfl⟩)⟩
    obtain ⟨draft', hdraft'⟩ := hlast
    refine ⟨draft', ?_⟩
    rw [List.foldlM_append, except_bind_eq_ok_iff]
    exact ⟨draft, hdraft, by simpa using hdraft'⟩

/-- A draft that holds what the members give is completed as the members say. -/
theorem completeFrom_eq_ok_iff {ms : List (String × Json)} {draft : Draft σ}
    {fields : List (Field σ)} (hslots : ∀ f ∈ fields, Slot ms f (draft.lookup f.name)) {s t : σ} :
    completeFrom draft fields s = .ok t ↔ Completes ms fields s t := by
  induction fields generalizing s with
  | nil => simp [completeFrom, Completes]
  | cons f fs ih =>
    have hslot := hslots f (List.mem_cons_self ..)
    have hrest := fun u => ih (s := u) fun g hg => hslots g (List.mem_cons_of_mem f hg)
    rw [completeFrom, Completes]
    cases hlookup : draft.lookup f.name with
    | none =>
      rw [hlookup] at hslot
      have hlacks : Lacks ms f.name := hslot
      cases hrequired : f.isRequired with
      | true =>
        simp only [if_true]
        constructor
        · intro h
          simp at h
        · intro h
          rcases h with ⟨v, put, hsole, _⟩ | ⟨h, _⟩
          · exact absurd hlacks hsole.not_lacks
          · simp at h
      | false =>
        simp only [Bool.false_eq_true, if_false, hrest]
        constructor
        · intro h
          exact Or.inr ⟨trivial, hlacks, h⟩
        · intro h
          rcases h with ⟨v, put, hsole, _⟩ | ⟨_, _, h⟩
          · exact absurd hlacks hsole.not_lacks
          · exact h
    | some put =>
      rw [hlookup] at hslot
      obtain ⟨v, hsole, hfill⟩ := hslot
      simp only [hrest]
      constructor
      · intro h
        exact Or.inl ⟨v, put, hsole, hfill, h⟩
      · intro h
        rcases h with ⟨v', put', hsole', hfill', h⟩ | ⟨_, hlacks, _⟩
        · obtain rfl := hsole.unique hsole'
          obtain rfl : put = put' := by simpa [hfill] using hfill'
          exact h
        · exact absurd hlacks hsole.not_lacks

theorem Completes.slot {ms : List (String × Json)} {fields : List (Field σ)} {s t : σ}
    (h : Completes ms fields s t) : ∀ f ∈ fields, ∃ put, Slot ms f put := by
  induction fields generalizing s with
  | nil => simp
  | cons f fs ih =>
    intro g hg
    rcases h with ⟨v, put, hsole, hfill, h⟩ | ⟨_, hlacks, h⟩
    · rcases List.mem_cons.mp hg with rfl | hg
      · exact ⟨some put, v, hsole, hfill⟩
      · exact ih h g hg
    · rcases List.mem_cons.mp hg with rfl | hg
      · exact ⟨none, hlacks⟩
      · exact ih h g hg

/-- The object form of a record. -/
theorem fromValue_object_eq_ok_iff (hnames : shape.names.Nodup) {ms : List (String × Json)}
    {s : σ} :
    shape.reader.fromValue (.object ms) = .ok s ↔
      shape.Known ms ∧ Completes ms shape.fields shape.blank s := by
  change (ms.foldlM shape.memberOfValue [] >>= shape.complete) = .ok s ↔ _
  rw [except_bind_eq_ok_iff]
  constructor
  · intro h
    obtain ⟨draft, hdraft, hcomplete⟩ := h
    obtain ⟨hknown, hslots⟩ := slot_of_foldlM hnames hdraft
    exact ⟨hknown, (completeFrom_eq_ok_iff hslots).mp hcomplete⟩
  · intro h
    obtain ⟨hknown, hcompletes⟩ := h
    obtain ⟨draft, hdraft⟩ := exists_foldlM hnames hknown hcompletes.slot
    exact ⟨draft, hdraft,
      (completeFrom_eq_ok_iff (slot_of_foldlM hnames hdraft).2).mpr hcompletes⟩

theorem inOrderOfValue_eq_ok_iff {i : Nat} {fields : List (Field σ)} {vs : List Json} {s t : σ} :
    shape.inOrderOfValue i fields vs s = .ok t ↔ InOrder fields vs s t := by
  induction fields generalizing i vs s with
  | nil => cases vs <;> simp [inOrderOfValue, InOrder, pure, Except.pure]
  | cons f fs ih =>
    cases vs with
    | nil => cases hrequired : f.isRequired <;> simp [inOrderOfValue, InOrder, hrequired, ih]
    | cons v vs =>
      simp only [inOrderOfValue, InOrder, except_bind_eq_ok_iff, ih]

/-- What a record is read from: its object form or its list form. -/
theorem fromValue_eq_ok_iff (hnames : shape.names.Nodup) {v : Json} {s : σ} :
    shape.reader.fromValue v = .ok s ↔
      (∃ ms, v = .object ms ∧ shape.Known ms ∧ Completes ms shape.fields shape.blank s) ∨
        ∃ vs, v = .array vs ∧ InOrder shape.fields vs shape.blank s := by
  cases v with
  | object ms => simp [fromValue_object_eq_ok_iff hnames]
  | array vs => simp [reader, inOrderOfValue_eq_ok_iff]
  | _ => simp [reader]

theorem known_of_open (hopen : shape.isClosed = false) (ms : List (String × Json)) :
    shape.Known ms := by
  intro hclosed
  rw [hopen] at hclosed
  exact absurd hclosed (by simp)

section Field

variable {ms : List (String × Json)} {name : String} {r : Reader α} {put : α → σ → σ}
  {fs : List (Field σ)} {s t : σ}

theorem completes_nil_iff : Completes ms [] s t ↔ s = t := Iff.rfl

theorem completes_field_iff :
    Completes ms (field name r put :: fs) s t ↔
      ∃ v a, Sole ms name v ∧ r.fromValue v = .ok a ∧ Completes ms fs (put a s) t := by
  simp only [Completes, field, Reader.fromValue_map_eq_ok_iff]
  constructor
  · intro h
    rcases h with ⟨v, _, hsole, ⟨a, ha, rfl⟩, h⟩ | ⟨hrequired, _⟩
    · exact ⟨v, a, hsole, ha, h⟩
    · exact absurd hrequired (by simp)
  · intro h
    obtain ⟨v, a, hsole, ha, h⟩ := h
    exact Or.inl ⟨v, _, hsole, ⟨a, ha, rfl⟩, h⟩

/-- An optional field occurs once or not at all. -/
theorem completes_optionalField_iff :
    Completes ms (optionalField name r put :: fs) s t ↔
      (∃ v a, Sole ms name v ∧ r.fromValue v = .ok a ∧ Completes ms fs (put a s) t) ∨
        (Lacks ms name ∧ Completes ms fs s t) := by
  simp only [Completes, optionalField, Reader.fromValue_map_eq_ok_iff]
  constructor
  · intro h
    rcases h with ⟨v, _, hsole, ⟨a, ha, rfl⟩, h⟩ | ⟨_, hlacks, h⟩
    · exact Or.inl ⟨v, a, hsole, ha, h⟩
    · exact Or.inr ⟨hlacks, h⟩
  · intro h
    rcases h with ⟨v, a, hsole, ha, h⟩ | ⟨hlacks, h⟩
    · exact Or.inl ⟨v, _, hsole, ⟨a, ha, rfl⟩, h⟩
    · exact Or.inr ⟨trivial, hlacks, h⟩

variable {vs : List Json}

theorem inOrder_nil_iff : InOrder [] vs s t ↔ vs = [] ∧ s = t := by
  cases vs <;> simp [InOrder]

theorem inOrder_field_iff :
    InOrder (field name r put :: fs) vs s t ↔
      ∃ v a ws, vs = v :: ws ∧ r.fromValue v = .ok a ∧ InOrder fs ws (put a s) t := by
  cases vs with
  | nil => simp [InOrder, field]
  | cons v vs =>
    simp only [InOrder, field, Reader.fromValue_map_eq_ok_iff]
    constructor
    · intro h
      obtain ⟨_, ⟨a, ha, rfl⟩, h⟩ := h
      exact ⟨v, a, vs, rfl, ha, h⟩
    · intro h
      obtain ⟨_, a, _, ⟨⟩, ha, h⟩ := h
      exact ⟨_, ⟨a, ha, rfl⟩, h⟩

/-- A list may stop before an optional field, but not leave one out in the middle. -/
theorem inOrder_optionalField_iff :
    InOrder (optionalField name r put :: fs) vs s t ↔
      (∃ v a ws, vs = v :: ws ∧ r.fromValue v = .ok a ∧ InOrder fs ws (put a s) t) ∨
        (vs = [] ∧ InOrder fs [] s t) := by
  cases vs with
  | nil => simp [InOrder, optionalField]
  | cons v vs =>
    simp only [InOrder, optionalField, Reader.fromValue_map_eq_ok_iff]
    constructor
    · intro h
      obtain ⟨_, ⟨a, ha, rfl⟩, h⟩ := h
      exact Or.inl ⟨v, a, vs, rfl, ha, h⟩
    · intro h
      rcases h with ⟨_, a, _, ⟨⟩, ha, h⟩ | ⟨h, _⟩
      · exact ⟨_, ⟨a, ha, rfl⟩, h⟩
      · exact absurd h (by simp)

end Field

end Shape

end Json

end SceneScript
