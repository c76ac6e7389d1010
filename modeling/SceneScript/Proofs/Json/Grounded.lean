import SceneScript.Proofs.Json.Tagged
import SceneScript.Proofs.Json.Yields

/-!
Nothing comes out of a text that could not come out of a value. A reader for which this is so can
be judged by its values alone, whatever the text is: it need not be well-formed up to its end, and
what is passed over in it does not matter.
-/
namespace SceneScript.Json

open Scan

variable {α β σ : Type}

def Reaches {ε γ : Type} (step : σ → γ → Except ε σ) (start s : σ) : Prop :=
  ∃ ms : List γ, ms.foldlM step start = .ok s

/-- One more member can follow the members that lead to a state. -/
theorem Reaches.snoc {ε γ : Type} {step : σ → γ → Except ε σ} {start s t : σ} {m : γ}
    (h : Reaches step start s) (hm : step s m = .ok t) : Reaches step start t := by
  obtain ⟨ms, hms⟩ := h
  refine ⟨ms ++ [m], ?_⟩
  rw [List.foldlM_append, except_bind_eq_ok_iff]
  exact ⟨s, hms, by simpa using hm⟩

def Reader.Grounded (r : Reader α) : Prop :=
  ∀ depth a, (r.fromText depth).Yields a → ∃ v, r.fromValue v = .ok a

namespace Reader

theorem Grounded.map {r : Reader α} (h : r.Grounded) (f : α → β) : (r.map f).Grounded := by
  intro depth b hb
  obtain ⟨a, ha, rfl⟩ := Yields.map hb
  obtain ⟨v, hv⟩ := h depth a ha
  exact ⟨v, fromValue_map_eq_ok_iff.mpr ⟨a, hv, rfl⟩⟩

private theorem yields_stringOr {other string : Scan α} {a : α}
    (h : (stringOr other string).Yields a) : other.Yields a ∨ string.Yields a := by
  obtain ⟨cs, rest, h⟩ := h
  unfold success stringOr at h
  cases hskip : skipBlanks cs with
  | nil => simp [hskip, failAtNext] at h
  | cons c tail =>
    by_cases hquote : c = '"'
    · exact Or.inr ⟨tail, rest, by simpa [hskip, hquote, success] using h⟩
    · exact Or.inl ⟨c :: tail, rest, by simpa [hskip, hquote, success] using h⟩

theorem grounded_text (expected : String) (f : String → Except Unsuitable α) :
    (text expected f).Grounded := by
  intro depth a ha
  rcases yields_stringOr ha.placed with hother | hstring
  · exact absurd hother (not_yields_wrongType expected a)
  · obtain ⟨s, _, hs⟩ := hstring.bind
    exact ⟨.string s, fromValue_text_eq_ok_iff.mpr ⟨s, rfl, hs.accept⟩⟩

theorem grounded_string : string.Grounded := grounded_text "a string" .ok

theorem grounded_keyword (expected : String) (meanings : List (String × α)) :
    (keyword expected meanings).Grounded := grounded_text expected _

/-- Whatever list comes out of a text, each of its items comes out of a value. -/
theorem Grounded.list {r : Reader α} (h : r.Grounded) : (list r).Grounded := by
  intro depth as has
  rcases has.valueOf with hlist | hother | hother
  · obtain ⟨less, hitems⟩ := hlist.nested
    have hvalues : ∀ a ∈ as, ∃ v, r.fromValue v = .ok a := fun a ha =>
      h less a (yields_itemsToEnd hitems a ha)
    have hsome : Nonempty Json := ⟨.null⟩
    choose! value hvalue using hvalues
    refine ⟨.array (as.map value), fromValue_list_eq_ok_iff.mpr ⟨_, rfl, ?_⟩⟩
    rw [List.forall₂_map_left_iff]
    exact List.forall₂_same.mpr hvalue
  · exact absurd hother (not_yields_wrongType _ as)
  · exact absurd hother (not_yields_wrongType _ as)

end Reader

namespace Shape

variable {shape : Shape σ}

/-- A record with the given fields filled in from some values, each for itself. -/
def Filled : List (Field σ) → σ → σ → Prop
  | [], s, t => s = t
  | f :: fs, s, t =>
    (∃ v put, f.fill.fromValue v = .ok put ∧ Filled fs (put s) t) ∨
      (f.isRequired = false ∧ Filled fs s t)

/-- A member that names no field does not matter to the record. -/
theorem completes_cons_iff {ms : List (String × Json)} {m : String × Json}
    {fs : List (Field σ)} (hm : ∀ f ∈ fs, m.1 ≠ f.name) {s t : σ} :
    Completes (m :: ms) fs s t ↔ Completes ms fs s t := by
  induction fs generalizing s with
  | nil => exact Iff.rfl
  | cons f fs ih =>
    have hne : m.1 ≠ f.name := hm f (List.mem_cons_self ..)
    simp only [Completes, sole_cons_of_ne hne, lacks_cons_iff, hne, ne_eq, not_false_iff, true_and,
      ih fun g hg => hm g (List.mem_cons_of_mem f hg)]

/-- Values for the fields make an object of the record. -/
theorem Filled.exists_completes {fs : List (Field σ)} (hnames : (fs.map Field.name).Nodup)
    {s t : σ} (h : Filled fs s t) :
    ∃ ms, (∀ m ∈ ms, m.1 ∈ fs.map Field.name) ∧ Completes ms fs s t := by
  induction fs generalizing s with
  | nil => exact ⟨[], by simp, h⟩
  | cons f fs ih =>
    obtain ⟨hf, hfs⟩ := List.nodup_cons.mp hnames
    have hlacks : ∀ ms : List (String × Json), (∀ m ∈ ms, m.1 ∈ fs.map Field.name) →
        Lacks ms f.name := fun ms hms m hm heq => hf (heq ▸ hms m hm)
    rcases h with ⟨v, put, hfill, h⟩ | ⟨hrequired, h⟩
    · obtain ⟨ms, hms, hcompletes⟩ := ih hfs h
      refine ⟨(f.name, v) :: ms, ?_, Or.inl ⟨v, put, sole_cons_of_lacks v (hlacks ms hms), hfill,
        (completes_cons_iff ?_).mpr hcompletes⟩⟩
      · intro m hm
        rcases List.mem_cons.mp hm with rfl | hm
        · exact List.mem_cons_self ..
        · exact List.mem_cons_of_mem f.name (hms m hm)
      · intro g hg heq
        have heq : f.name = g.name := heq
        exact hf (heq ▸ List.mem_map_of_mem hg)
    · obtain ⟨ms, hms, hcompletes⟩ := ih hfs h
      exact ⟨ms, fun m hm => List.mem_cons_of_mem f.name (hms m hm),
        Or.inr ⟨hrequired, hlacks ms hms, hcompletes⟩⟩

/-- The list form fills in the fields from values, however the text goes on. -/
theorem yields_inOrder {depth i : Nat} {fs : List (Field σ)} {isFirst : Bool} {s t : σ}
    (hfields : ∀ f ∈ fs, f.fill.Grounded) (h : (shape.inOrder depth i fs isFirst s).Yields t) :
    Filled fs s t := by
  induction fs generalizing i isFirst s with
  | nil => exact yields_pure_iff.mp h
  | cons f fs ih =>
    have ih := fun {i isFirst s} => @ih i isFirst s
      fun g hg => hfields g (List.mem_cons_of_mem f hg)
    rw [inOrder] at h
    obtain ⟨hasItem, _, h⟩ := h.bind
    cases hasItem with
    | true =>
      obtain ⟨put, hput, h⟩ := Yields.bind h
      obtain ⟨v, hv⟩ := hfields f (List.mem_cons_self ..) depth put hput
      exact Or.inl ⟨v, put, hv, ih h⟩
    | false =>
      cases hrequired : f.isRequired with
      | true => exact absurd (by simpa [hrequired] using h) (not_yields_reject _ t)
      | false => exact Or.inr ⟨hrequired, ih (by simpa [hrequired] using h)⟩

def GroundedDraft (fs : List (Field σ)) (draft : Draft σ) : Prop :=
  ∀ f ∈ fs, ∀ put, draft.lookup f.name = some put → ∃ v, f.fill.fromValue v = .ok put

theorem GroundedDraft.filled {fs : List (Field σ)} {draft : Draft σ}
    (hdraft : GroundedDraft fs draft) {s t : σ} (h : completeFrom draft fs s = .ok t) :
    Filled fs s t := by
  induction fs generalizing s with
  | nil => simpa [completeFrom, Filled] using h
  | cons f fs ih =>
    have ih := fun {s} => @ih (fun g hg => hdraft g (List.mem_cons_of_mem f hg)) s
    rw [completeFrom] at h
    cases hlookup : draft.lookup f.name with
    | some put =>
      obtain ⟨v, hv⟩ := hdraft f (List.mem_cons_self ..) put hlookup
      exact Or.inl ⟨v, put, hv, ih (by simpa [hlookup] using h)⟩
    | none =>
      cases hrequired : f.isRequired with
      | true => simp [hlookup, hrequired] at h
      | false => exact Or.inr ⟨hrequired, ih (by simpa [hlookup, hrequired] using h)⟩

/-- A member that is read either fills in a field from a value or is passed over. -/
theorem GroundedDraft.member (hnames : shape.names.Nodup)
    (hfields : ∀ f ∈ shape.fields, f.fill.Grounded) {depth : Nat} {draft draft' : Draft σ}
    {key : String} (hdraft : GroundedDraft shape.fields draft)
    (h : (shape.member depth draft key).Yields draft') : GroundedDraft shape.fields draft' := by
  obtain ⟨found, hfound, h⟩ := Yields.bind h
  cases found with
  | none =>
    obtain ⟨_, _, h⟩ := Yields.bind h
    obtain ⟨_, _, h⟩ := h.bind
    obtain rfl := yields_pure_iff.mp h
    exact hdraft
  | some f =>
    obtain ⟨hf, rfl, _⟩ := (fieldOf_eq_some_iff hnames).mp hfound.accept
    obtain ⟨_, _, h⟩ := Yields.bind h
    obtain ⟨put, hput, h⟩ := h.bind
    obtain rfl := yields_pure_iff.mp h
    intro g hg put' hlookup
    by_cases hname : g.name = f.name
    · obtain rfl := eq_of_name_eq hnames hg hf hname
      obtain rfl : put = put' := by simpa using hlookup
      exact hfields g hg depth put hput
    · have hbeq : (g.name == f.name) = false := by simpa using hname
      exact hdraft g hg put' (by simpa [List.lookup_cons, hbeq] using hlookup)

/-- A record whose fields come from values comes from an object of these values. -/
theorem grounded_reader (hnames : shape.names.Nodup)
    (hfields : ∀ f ∈ shape.fields, f.fill.Grounded) : shape.reader.Grounded := by
  intro depth t ht
  have hfilled : Filled shape.fields shape.blank t := by
    rcases ht.valueOf with hlist | hobject | hother
    · obtain ⟨less, hinside⟩ := hlist.nested
      exact yields_inOrder hfields hinside
    · obtain ⟨less, hinside⟩ := hobject.nested
      obtain ⟨draft, hmembers, hcomplete⟩ := hinside.bind
      have hdraft : GroundedDraft shape.fields draft :=
        yields_membersToEnd (fun _ _ _ hs hm => hs.member hnames hfields hm) hmembers
          (fun _ _ _ hlookup => absurd hlookup (by simp))
      exact hdraft.filled hcomplete.accept
    · exact absurd hother (not_yields_wrongType _ t)
  obtain ⟨ms, hms, hcompletes⟩ := hfilled.exists_completes hnames
  exact ⟨.object ms, (fromValue_object_eq_ok_iff hnames).mpr ⟨fun _ => hms, hcompletes⟩⟩

end Shape

namespace Tagged

variable (t : Tagged α)

theorem Parts.reaches_member {depth : Nat} {parts parts' : Parts α} {key : String}
    (hparts : Reaches t.memberOfValue {} parts) (h : (t.member depth parts key).Yields parts') :
    Reaches t.memberOfValue {} parts' := by
  rw [Tagged.member] at h
  by_cases htag : key = t.tag
  · rw [if_pos htag] at h
    cases hpayload : parts.payload with
    | some payload =>
      rw [hpayload] at h
      exact absurd h (not_yields_reject _ parts')
    | none =>
      rw [hpayload] at h
      obtain ⟨_, _, h⟩ := Yields.bind h
      obtain ⟨payload, hkeyword, h⟩ := h.bind
      obtain rfl := yields_pure_iff.mp h
      obtain ⟨v, hv⟩ := Reader.grounded_keyword _ _ depth payload hkeyword
      exact hparts.snoc (m := (key, v))
        (memberOfValue_eq_ok_iff.mpr (Or.inl ⟨htag, hpayload, payload, hv, rfl⟩))
  · rw [if_neg htag] at h
    obtain ⟨_, _, h⟩ := Yields.bind h
    obtain ⟨v, _, h⟩ := h.bind
    obtain rfl := yields_pure_iff.mp h
    exact hparts.snoc (m := (key, v)) (memberOfValue_eq_ok_iff.mpr (Or.inr ⟨htag, rfl⟩))

/-- The variants are read from values in any case. -/
theorem grounded_reader : t.reader.Grounded := by
  intro depth a ha
  obtain ⟨⟨payload, rest⟩, hvariant, haccept⟩ := Yields.bind ha
  have ha : payload.fromValue rest = .ok a := haccept.accept
  have hvalue : ∃ v, t.variantOfValue v = .ok (payload, rest) := by
    rcases hvariant.valueOf with hlist | hobject | hother
    · obtain ⟨less, hinside⟩ := hlist.nested
      obtain ⟨hasItem, _, hinside⟩ := Yields.bind hinside
      cases hasItem with
      | false => exact absurd hinside (not_yields_reject _ _)
      | true =>
        obtain ⟨found, hkeyword, hinside⟩ := Yields.bind hinside
        obtain ⟨vs, _, hinside⟩ := hinside.bind
        obtain ⟨rfl, rfl⟩ := Prod.mk.inj (yields_pure_iff.mp hinside)
        obtain ⟨v, hv⟩ := Reader.grounded_keyword _ _ less found hkeyword
        exact ⟨.array (v :: vs), except_bind_eq_ok_iff.mpr ⟨found, hv, rfl⟩⟩
    · obtain ⟨less, hinside⟩ := hobject.nested
      obtain ⟨parts, hmembers, hcomplete⟩ := hinside.bind
      have hreach : Reaches t.memberOfValue {} parts :=
        yields_membersToEnd (fun _ _ _ hs hm => Parts.reaches_member t hs hm) hmembers ⟨[], rfl⟩
      obtain ⟨ms, hms⟩ := hreach
      exact ⟨.object ms, except_bind_eq_ok_iff.mpr ⟨parts, hms, hcomplete.accept⟩⟩
    · exact absurd hother (not_yields_wrongType _ _)
  obtain ⟨v, hv⟩ := hvalue
  exact ⟨v, except_bind_eq_ok_iff.mpr ⟨(payload, rest), hv, ha⟩⟩

end Tagged

/-- Whatever a whole text is read as, some value is read as that too. -/
theorem Reader.Grounded.exists_of_parse {r : Reader α} (h : r.Grounded) {source : String} {a : α}
    (ha : r.parse source = .ok a) : ∃ v, r.fromValue v = .ok a := by
  have hyields : r.toEnd.Yields a := by
    unfold Reader.parse at ha
    split at ha
    · rename_i b rest heq
      obtain rfl : b = a := by simpa using ha
      exact yields_of_eq_ok heq
    · simp at ha
  obtain ⟨b, hb, hrest⟩ := hyields.bind
  obtain ⟨_, _, hrest⟩ := hrest.bind
  obtain rfl := yields_pure_iff.mp hrest
  exact h depthLimit b hb

end SceneScript.Json
