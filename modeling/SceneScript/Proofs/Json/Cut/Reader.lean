import SceneScript.Proofs.Json.Cut.Value
import SceneScript.Proofs.Json.Tagged

/-!
Known shapes of which the end is missing. Checks of what is read come when it has been read, and
what stands before a cut passes them; so the end of the text is met first.
-/
namespace SceneScript.Json

open Scan

variable {α β σ : Type}

/-- The end of a text that stops inside this value is noticed, and nothing else is. -/
def Reader.NoticesEnd (r : Reader α) (v : Json) : Prop :=
  ∀ (depth : Nat) (blanks text cs : List Char), IsText v text → v.depth ≤ depth →
    AllBlank blanks → Cut text cs → (r.fromText depth).Breaks (blanks ++ cs)

namespace Reader

theorem NoticesEnd.map {r : Reader α} {v : Json} (h : r.NoticesEnd v) (f : α → β) :
    (r.map f).NoticesEnd v :=
  fun depth blanks text cs htext hdepth hblanks hcs =>
    (h depth blanks text cs htext hdepth hblanks hcs).map f

/-- An unknown name is not complained about before its closing quote. -/
theorem noticesEnd_text (expected : String) (f : String → Except Unsuitable α) (s : String) :
    (text expected f).NoticesEnd (.string s) := by
  intro depth blanks text cs htext _ hblanks hcs
  obtain ⟨inside, hinside, rfl⟩ := htext
  apply Breaks.placed
  rcases cut_cons_iff.mp hcs with rfl | ⟨cs, rfl, hlack⟩
  · rw [List.append_nil]
    apply (breaks_failAtNext (m := .endInValue) rfl []).of_eq
    simp only [stringOr, skipBlanks_allBlank hblanks]
  · have hquote : isBlank '"' = false := by decide
    have hread : (readString >>= fun s => accept (f s)).Breaks cs :=
      (breaks_readString hinside hlack).bind _
    apply hread.of_eq
    simp only [stringOr, skipBlanks_append_cons hblanks hquote, if_true]

theorem noticesEnd_string (s : String) : string.NoticesEnd (.string s) :=
  noticesEnd_text "a string" .ok s

theorem noticesEnd_keyword (expected : String) (meanings : List (String × α)) (s : String) :
    (keyword expected meanings).NoticesEnd (.string s) := noticesEnd_text expected _ s

/-- The items before the cut are all readable, so the one that is cut is come to. -/
theorem NoticesEnd.list {r : Reader α} (hfaithful : r.Faithful) {vs : List Json}
    (hvs : ∀ v ∈ vs, ∃ a, r.fromValue v = .ok a) (h : ∀ v ∈ vs, r.NoticesEnd v) :
    (list r).NoticesEnd (.array vs) := by
  intro depth blanks text cs htext hdepth hblanks hcs
  obtain ⟨inside, hinside, rfl⟩ := itemsText_of_array htext
  cases depth with
  | zero => simp [Json.depth] at hdepth
  | succ depth =>
    apply breaks_valueOf_list hblanks hcs
    intro cs hlack
    apply Breaks.closedBy
    apply breaks_items _ _ hinside hlack
    · intro v hv text rest htext hrest
      obtain ⟨a, ha⟩ := hvs v hv
      have hread := hfaithful depth v [] text rest htext (depth_le_of_mem_array hv hdepth)
        allBlank_nil hrest
      rw [ha] at hread
      exact ⟨a, hread⟩
    · intro v hv text cs htext hlack
      exact h v hv depth [] text cs htext (depth_le_of_mem_array hv hdepth) allBlank_nil hlack

end Reader

/-- An object whose members are read one by one. -/
private theorem breaks_object {member : Nat → σ → String → Scan σ}
    {f : σ → String × Json → Except Unsuitable σ} {ms : List (String × Json)} {s t : σ}
    (hs : ms.foldlM f s = .ok t)
    (hread : ∀ depth s, ∀ m ∈ ms, m.2.depth ≤ depth → ∀ gap before text rest, AllBlank gap →
      AllBlank before → IsText m.2 text → Ends rest →
      (member depth s m.1).success (gap ++ ':' :: (before ++ (text ++ rest))) =
        (f s m).toOption.map fun t => (t, rest))
    (hcut : ∀ depth s t, ∀ m ∈ ms, m.2.depth ≤ depth → f s m = .ok t → ∀ gap before text cs,
      AllBlank gap → AllBlank before → IsText m.2 text → Cut (gap ++ ':' :: (before ++ text)) cs →
      (member depth s m.1).Breaks cs)
    (finish : σ → Scan β) {list other : Scan β} {depth : Nat}
    (hdepth : (Json.object ms).depth ≤ depth) {blanks text cs : List Char}
    (htext : IsText (.object ms) text) (hblanks : AllBlank blanks) (hcs : Cut text cs) :
    (valueOf list
      (nested (fun depth => do finish (← membersToEnd (member depth) s)) endObject depth)
      other).Breaks (blanks ++ cs) := by
  obtain ⟨inside, hinside, rfl⟩ := membersText_of_object htext
  cases depth with
  | zero => simp [Json.depth] at hdepth
  | succ depth =>
    apply breaks_valueOf_object hblanks hcs
    intro cs hlack
    apply Breaks.closedBy
    apply Breaks.bind
    have hoption : ms.foldlM (fun s m => (f s m).toOption) s = some t := by
      rw [← toOption_foldlM, hs]
      rfl
    apply breaks_members _ _ hinside hlack _ hoption
    · intro s m hm
      exact hread depth s m hm (depth_le_of_mem_object hm hdepth)
    · intro s t m hm ht
      exact hcut depth s t m hm (depth_le_of_mem_object hm hdepth) (toOption_eq_some_iff.mp ht)

namespace Shape

variable {shape : Shape σ}

/-- A record in its object form, none of whose members is passed over. -/
theorem noticesEnd_reader (hfields : ∀ f ∈ shape.fields, f.fill.Faithful)
    (hnames : shape.names.Nodup) {ms : List (String × Json)} {a : σ}
    (hms : shape.reader.fromValue (.object ms) = .ok a) (hknown : ∀ m ∈ ms, m.1 ∈ shape.names)
    (h : ∀ m ∈ ms, ∀ f ∈ shape.fields, f.name = m.1 → f.fill.NoticesEnd m.2) :
    shape.reader.NoticesEnd (.object ms) := by
  intro depth blanks text cs htext hdepth hblanks hcs
  obtain ⟨draft, hdraft, _⟩ := except_bind_eq_ok_iff.mp hms
  apply breaks_object hdraft _ _ _ hdepth htext hblanks hcs
  · intro depth s m _ hdepth gap before text rest hgap hbefore htext hrest
    exact shape.success_member hfields s m hdepth hgap hbefore htext hrest
  · intro depth s t m hm hdepth ht gap before text cs hgap hbefore htext hlack
    rcases (memberOfValue_eq_ok_iff hnames).mp ht with ⟨f, hf, put, hname, hlookup, _⟩ | ⟨hother, _⟩
    · have hfield : shape.fieldOf s m.1 = .ok (some f) :=
        (fieldOf_eq_some_iff hnames).mpr ⟨hf, hname, hlookup⟩
      have heq : shape.member depth s m.1 =
          (do colon; let put ← f.fill.fromText depth; pure ((m.1, put) :: s)) := by
        rw [member, hfield]
        rfl
      obtain ⟨c, tail, rfl, _⟩ := IsText.eq_cons htext
      rw [heq]
      apply breaks_behindColon hgap hbefore (List.cons_ne_nil c tail) _ hlack
      intro blanks cs hblanks hlack
      exact (h m hm f hf hname depth blanks (c :: tail) cs htext hdepth hblanks hlack).bind _
    · exact absurd (hknown m hm) hother

end Shape

namespace Tagged

variable (t : Tagged α)

/-- What is told by a tag, in its object form and with nothing but strings at its leaves. -/
theorem noticesEnd_reader {ms : List (String × Json)} {a : α}
    (hms : t.reader.fromValue (.object ms) = .ok a) (h : ∀ m ∈ ms, m.2.IsTextual) :
    t.reader.NoticesEnd (.object ms) := by
  intro depth blanks text cs htext hdepth hblanks hcs
  obtain ⟨p, hp, _⟩ := except_bind_eq_ok_iff.mp hms
  obtain ⟨parts, hparts, _⟩ := except_bind_eq_ok_iff.mp hp
  apply Breaks.bind
  apply breaks_object hparts _ _ _ hdepth htext hblanks hcs
  · intro depth s m _ hdepth gap before text rest hgap hbefore htext hrest
    exact t.success_member s m hdepth hgap hbefore htext hrest
  · intro depth s u m hm hdepth hu gap before text cs hgap hbefore htext hlack
    obtain ⟨c, tail, rfl, _⟩ := IsText.eq_cons htext
    rcases memberOfValue_eq_ok_iff.mp hu with ⟨htag, hnone, payload, hpayload, _⟩ | ⟨htag, _⟩
    · obtain ⟨name, hname, _⟩ := Reader.fromValue_keyword_eq_ok_iff.mp hpayload
      have heq : t.member depth s m.1 =
          (do colon; let payload ← t.keyword.fromText depth; pure { s with payload }) := by
        rw [member, if_pos htag, hnone]
        rfl
      rw [hname] at htext
      rw [heq]
      apply breaks_behindColon hgap hbefore (List.cons_ne_nil c tail) _ hlack
      intro blanks cs hblanks hlack
      have hkeyword := Reader.noticesEnd_keyword "variant identifier" t.variants name depth blanks
        (c :: tail) cs htext (by simp [Json.depth]) hblanks hlack
      exact hkeyword.bind _
    · rw [member, if_neg htag]
      apply breaks_behindColon hgap hbefore (List.cons_ne_nil c tail) _ hlack
      intro blanks cs hblanks hlack
      exact (breaks_read (h m hm) hdepth htext hblanks hlack).bind _

end Tagged

/-! Whole texts -/

/-- A whole text of which the end is missing is refused because of that. -/
theorem Reader.NoticesEnd.parse {r : Reader α} {v : Json} (h : r.NoticesEnd v)
    (hdepth : v.depth ≤ depthLimit) {text : List Char} (htext : IsText v text) {source : String}
    (hsource : Cut text source.toList) :
    ∃ e, r.parse source = .error e ∧ e.category = .ending := by
  obtain ⟨f, rest, heq, m, hm, hcategory⟩ :=
    (h depthLimit [] text source.toList htext hdepth allBlank_nil hsource).bind fun a =>
      (do endText; pure a)
  have hwhole : r.toEnd source.toList = .error f rest := heq
  refine ⟨f.locate source.toList, ?_, ?_⟩
  · rw [Reader.parse, hwhole]
  · simp only [Error.category, Fault.locate, hm, hcategory]

end SceneScript.Json
