import SceneScript.Proofs.Fallible
import SceneScript.Proofs.Json.Read

/-!
Readers of known shapes against the grammar. A reader is faithful when it makes of a text what it
makes of the value that the text spells, and leaves what stands behind it. Every way of building
readers keeps this, so nothing about the text matters to a faithful reader but its value. A reader
is exact when it also finds the same fault in both.
-/
namespace SceneScript

namespace Json

open Scan

variable {α β σ : Type}

/-- A text reads as its value does. -/
def Reader.Faithful (r : Reader α) : Prop :=
  ∀ (depth : Nat) (v : Json) (blanks text rest : List Char), IsText v text → v.depth ≤ depth →
    AllBlank blanks → Ends rest →
      (r.fromText depth).success (blanks ++ (text ++ rest)) =
        (r.fromValue v).toOption.map fun a => (a, rest)

/-- A text reads as its value does, and what it cannot be read for is the same. -/
def Reader.Exact (r : Reader α) : Prop :=
  ∀ (depth : Nat) (v : Json) (blanks text rest : List Char), IsText v text → v.depth ≤ depth →
    AllBlank blanks → Ends rest →
      (r.fromText depth).verdict (blanks ++ (text ++ rest)) =
        ((r.fromValue v).mapError .unsuitable).map fun a => (a, rest)

/-- A reader that finds the same fault in both also fails on both. -/
theorem Reader.Exact.faithful {r : Reader α} (h : r.Exact) : r.Faithful := by
  intro depth v blanks text rest htext hdepth hblanks hrest
  rw [← toOption_verdict, h depth v blanks text rest htext hdepth hblanks hrest]
  cases r.fromValue v <;> rfl

/-- Where a list or an object is expected, nothing else is read. -/
private theorem success_valueOf_wrongType {v : Json} {list object : Scan α} {expected : String}
    {blanks text rest : List Char} (h : IsText v text) (hv : IsScalar v)
    (hblanks : AllBlank blanks) :
    (valueOf list object (wrongType expected)).success (blanks ++ (text ++ rest)) = none := by
  rw [success_valueOf_scalar h hv hblanks]
  exact success_wrongType expected _

namespace Reader

theorem Faithful.map {r : Reader α} (h : r.Faithful) (f : α → β) : (r.map f).Faithful := by
  intro depth v blanks text rest htext hdepth hblanks hrest
  simp only [Reader.map, success_map, toOption_map, h depth v blanks text rest htext hdepth hblanks
    hrest]
  cases (r.fromValue v).toOption <;> rfl

private theorem stringOr_cons {other string : Scan α} {blanks : List Char}
    (hblanks : AllBlank blanks) {c : Char} (hc : isBlank c = false) (cs : List Char) :
    stringOr other string (blanks ++ c :: cs) =
      if c = '"' then string cs else other (c :: cs) := by
  simp only [stringOr, skipBlanks_append_cons hblanks hc]

/-- Only a string starts with a quote. -/
private theorem head_ne_quote {v : Json} {text : List Char} (h : IsText v text)
    (hv : ∀ s, v ≠ .string s) :
    ∃ c tail, text = c :: tail ∧ isBlank c = false ∧ c ≠ '"' := by
  cases v with
  | null => exact ⟨'n', _, h, by decide, by decide⟩
  | bool b =>
    cases b
    · exact ⟨'f', _, h, by decide, by decide⟩
    · exact ⟨'t', _, h, by decide, by decide⟩
  | string s => exact absurd rfl (hv s)
  | number k =>
    obtain ⟨n, _, rfl⟩ := h
    unfold NumberLiteral.chars
    split
    · exact ⟨'-', _, rfl, by decide, by decide⟩
    · obtain ⟨d, tail, heq, hd⟩ := n.unsigned_eq_cons
      exact ⟨d, tail, heq, isBlank_of_isDigit hd, Text.ne_of_isDigit hd (by decide)⟩
  | array vs =>
    obtain ⟨inside, rfl⟩ := array_eq_cons h
    exact ⟨'[', inside, rfl, by decide, by decide⟩
  | object ms =>
    obtain ⟨inside, rfl⟩ := object_eq_cons h
    exact ⟨'{', inside, rfl, by decide, by decide⟩

theorem exact_text (expected : String) (f : String → Except Unsuitable α) :
    (text expected f).Exact := by
  intro depth v blanks cs rest htext _ hblanks hrest
  rw [text, verdict_placed, verdict]
  by_cases hv : ∃ s, v = .string s
  · obtain ⟨s, rfl⟩ := hv
    obtain ⟨inside, hinside, rfl⟩ := htext
    simp only [List.append_assoc, List.cons_append, List.nil_append]
    rw [stringOr_cons hblanks (by decide), if_pos rfl]
    change verdict _ _ = _
    rw [verdict_bind, verdict_of_success (success_readString hinside rest)]
    exact verdict_accept (f s) rest
  · have hvalue : (text expected f).fromValue v = .error (.wrongType (found v) expected) := by
      cases v with
      | string s => exact absurd ⟨s, rfl⟩ hv
      | _ => rfl
    have hwrong := verdict_wrongType (α := α) htext hrest expected
    obtain ⟨c, tail, rfl, hblank, hne⟩ := head_ne_quote htext fun s hs => hv ⟨s, hs⟩
    rw [List.cons_append, stringOr_cons hblanks hblank, if_neg hne]
    rw [text] at hvalue
    rw [hvalue]
    exact hwrong

theorem faithful_text (expected : String) (f : String → Except Unsuitable α) :
    (text expected f).Faithful :=
  (exact_text expected f).faithful

theorem exact_string : string.Exact := exact_text "a string" .ok

theorem faithful_string : string.Faithful := exact_string.faithful

theorem faithful_keyword (expected : String) (meanings : List (String × α)) :
    (keyword expected meanings).Faithful :=
  faithful_text expected _

/-- A list is read item by item, from a text as from a value. -/
theorem Faithful.list {r : Reader α} (h : r.Faithful) : (list r).Faithful := by
  intro depth v blanks text rest htext hdepth hblanks hrest
  by_cases hv : IsScalar v
  · have hvalue : ((Reader.list r).fromValue v).toOption = none := by
      cases v with
      | array vs => exact absurd hv id
      | object ms => exact absurd hv id
      | _ => rfl
    rw [hvalue, Reader.list, success_valueOf_wrongType htext hv hblanks]
    rfl
  cases v with
  | array vs =>
    cases depth with
    | zero => simp [Json.depth] at hdepth
    | succ depth =>
      obtain ⟨inside, hinside, rfl⟩ := itemsText_of_array htext
      have hitem : ∀ w ∈ vs, ∀ text rest, IsText w text → Ends rest →
          (r.fromText depth).success (text ++ rest) =
            (r.fromValue w).toOption.map fun a => (a, rest) := by
        intro w hw text rest htext hrest
        have hle := depth_le_of_mem_array hw hdepth
        exact h depth w [] text rest htext hle allBlank_nil hrest
      rw [Reader.list, success_valueOf_array htext hblanks, success_nested_succ, List.cons_append,
        success_bracketed, success_closedBy, success_itemsToEnd hitem hinside]
      simp only [toOption_mapM]
      cases vs.mapM fun w => (r.fromValue w).toOption <;> simp
  | object ms =>
    rw [Reader.list, success_valueOf_object htext hblanks]
    exact success_wrongType ..
  | _ => exact absurd trivial hv

/-- Every member counts, so the first fault among them is found in the text where it is in the
value. -/
theorem Exact.entries {value : Reader α} (h : value.Exact) (expected : String) (start : σ)
    (add : σ → String → α → Except Unsuitable σ) (finish : σ → Except Unsuitable β) :
    (entries expected value start add finish).Exact := by
  intro depth v blanks text rest htext hdepth hblanks hrest
  by_cases hv : IsScalar v
  · have hvalue : (Reader.entries expected value start add finish).fromValue v =
        .error (.wrongType (found v) expected) := by
      cases v with
      | array vs => exact absurd hv id
      | object ms => exact absurd hv id
      | _ => rfl
    rw [hvalue, Reader.entries, verdict_valueOf_scalar htext hv hblanks]
    exact verdict_wrongType htext hrest expected
  cases v with
  | array vs =>
    rw [Reader.entries, verdict_valueOf_array htext hblanks]
    exact verdict_wrongType htext hrest expected
  | object ms =>
    cases depth with
    | zero => simp [Json.depth] at hdepth
    | succ depth =>
      obtain ⟨inside, hinside, rfl⟩ := membersText_of_object htext
      rw [Reader.entries, verdict_valueOf_object htext hblanks, verdict_nested_succ,
        List.cons_append, verdict_bracketed, verdict_closedBy, verdict_bind,
        verdict_membersToEnd (f := fun s m =>
          (do add s m.1 (← value.fromValue m.2) : Except Unsuitable σ).mapError .unsuitable) ?_
          hinside]
      · simp only [← mapError_foldlM]
        cases ms.foldlM (fun s m => (do add s m.1 (← value.fromValue m.2) : Except Unsuitable σ))
          start with
        | error fault => rfl
        | ok s =>
          simp only [Except.mapError, Except.map, Bind.bind, Except.bind, verdict_accept]
          cases finish s with
          | error fault => rfl
          | ok b => simp only [verdict_of_success (success_endObject_cons rest)]
      · intro s m hm gap before text rest hgap hbefore htext hrest
        have hle := depth_le_of_mem_object hm hdepth
        have hvalue := h depth m.2 before text rest htext hle hbefore hrest
        rw [verdict_bind, verdict_of_success (success_colon hgap _)]
        change verdict _ _ = _
        rw [verdict_bind, hvalue, mapError_bind]
        cases value.fromValue m.2 with
        | error fault => rfl
        | ok a => exact verdict_accept (add s m.1 a) rest
  | _ => exact absurd trivial hv

end Reader

namespace Shape

variable (shape : Shape σ)

/-- An item that is left over is not the end of the list. -/
private theorem success_endList_of_item {isFirst : Bool} {v : Json} {vs : List Json}
    {cs : List Char} (h : ItemsText isFirst (v :: vs) cs) (rest : List Char) :
    endList.success (cs ++ rest) = none := by
  obtain ⟨lead, before, inside, after, hlead, hbefore, hinside, _, rfl⟩ := h
  cases isFirst with
  | true =>
    obtain rfl : lead = [] := hlead
    obtain ⟨c, tail, rfl, hblank, hne⟩ := IsText.eq_cons hinside
    have hskip := skipBlanks_append_cons hbefore hblank (tail ++ (after ++ rest))
    apply success_endList_of_ne _ hne
    exact ⟨tail ++ (after ++ rest), by simpa using hskip⟩
  | false =>
    obtain ⟨blanks, hblanks, rfl⟩ := hlead
    have hcomma : isBlank ',' = false := by decide
    have hskip := skipBlanks_append_cons hblanks hcomma (before ++ (inside ++ (after ++ rest)))
    have hne : ',' ≠ ']' := by decide
    apply success_endList_of_ne _ hne
    exact ⟨before ++ (inside ++ (after ++ rest)), by simpa using hskip⟩

/-- The list form: the numbers of the fields matter to faults only. -/
private theorem success_inOrder {depth : Nat} {fields : List (Field σ)}
    (hfields : ∀ f ∈ fields, f.fill.Faithful) {vs : List Json} (hdepth : itemsDepth vs ≤ depth)
    {isFirst : Bool} {cs : List Char} (h : ItemsText isFirst vs cs) (i j : Nat) (s : σ)
    (rest : List Char) :
    (closedBy (shape.inOrder depth i fields isFirst s) endList).success (cs ++ rest) =
      (shape.inOrderOfValue j fields vs s).toOption.map fun t => (t, rest) := by
  rw [success_closedBy]
  induction fields generalizing vs isFirst cs i j s with
  | nil =>
    rw [inOrder, success_pure, Option.bind_some]
    cases vs with
    | nil =>
      obtain ⟨blanks, hblanks, rfl⟩ := h
      rw [List.append_assoc, List.cons_append, List.nil_append, success_endList hblanks]
      rfl
    | cons v vs =>
      rw [success_endList_of_item h]
      rfl
  | cons f fields ih =>
    have ih := fun {vs} => @ih (fun g hg => hfields g (List.mem_cons_of_mem f hg)) vs
    rw [inOrder]
    cases vs with
    | nil =>
      rw [success_bind, success_nextItem_nil h, Option.bind_some]
      by_cases hrequired : f.isRequired
      · simp [hrequired, inOrderOfValue]
        rfl
      · have hend : ItemsText isFirst [] [']'] := ⟨[], allBlank_nil, rfl⟩
        have hothers := ih hdepth hend (i + 1) j s
        simpa [hrequired, inOrderOfValue] using hothers
    | cons v vs =>
      obtain ⟨lead, before, inside, after, hlead, hbefore, hinside, hafter, rfl⟩ := h
      simp only [itemsDepth] at hdepth
      have hfill := hfields f (List.mem_cons_self ..) depth v [] inside (after ++ rest) hinside
        (by omega) allBlank_nil (hafter.ends rest)
      have hothers := fun t => ih (by omega) hafter (i + 1) (j + 1) t
      simp only [List.append_assoc, List.nil_append] at hfill ⊢
      rw [success_bind, success_nextItem_cons hlead hbefore hinside, Option.bind_some,
        inOrderOfValue, toOption_bind]
      simp only [if_true, success_bind, hfill]
      cases (f.fill.fromValue v).toOption with
      | none => rfl
      | some put =>
        have hput := hothers (put s)
        simpa using hput

theorem mem_of_fieldOf {shape : Shape σ} {draft : Draft σ} {key : String} {f : Field σ}
    (h : shape.fieldOf draft key = .ok (some f)) : f ∈ shape.fields := by
  unfold fieldOf at h
  split at h
  · rename_i g hfind
    split at h
    · simp at h
    · obtain rfl : g = f := by simpa using h
      exact List.mem_of_find?_eq_some hfind
  · split at h <;> simp at h

theorem success_member {depth : Nat} (hfields : ∀ f ∈ shape.fields, f.fill.Faithful)
    (draft : Draft σ) (m : String × Json) (hdepth : m.2.depth ≤ depth)
    {gap before text rest : List Char} (hgap : AllBlank gap) (hbefore : AllBlank before)
    (htext : IsText m.2 text) (hrest : Ends rest) :
    (shape.member depth draft m.1).success (gap ++ ':' :: (before ++ (text ++ rest))) =
      (shape.memberOfValue draft m).toOption.map fun t => (t, rest) := by
  rw [member, memberOfValue, success_bind, success_accept, toOption_bind]
  cases hfield : shape.fieldOf draft m.1 with
  | error fault => rfl
  | ok found =>
    simp only [Except.toOption, Option.map_some, Option.bind_some]
    cases found with
    | none =>
      simp only [success_bind, success_colon hgap, Option.bind_some,
        success_skip htext hbefore hrest, success_pure]
      rfl
    | some f =>
      have hfill := hfields f (mem_of_fieldOf hfield) depth m.2 before text rest htext hdepth
        hbefore hrest
      simp only [success_bind, success_colon hgap, Option.bind_some, hfill, success_pure]
      cases f.fill.fromValue m.2 <;> rfl

/-- A record with faithful fields is read faithfully, in either form. -/
theorem faithful_reader (hfields : ∀ f ∈ shape.fields, f.fill.Faithful) :
    shape.reader.Faithful := by
  intro depth v blanks text rest htext hdepth hblanks hrest
  by_cases hv : IsScalar v
  · have hvalue : (shape.reader.fromValue v).toOption = none := by
      cases v with
      | array vs => exact absurd hv id
      | object ms => exact absurd hv id
      | _ => rfl
    rw [hvalue, Shape.reader, success_valueOf_wrongType htext hv hblanks]
    rfl
  cases depth with
  | zero =>
    cases v with
    | array vs => simp [Json.depth] at hdepth
    | object ms => simp [Json.depth] at hdepth
    | _ => exact absurd trivial hv
  | succ depth =>
    cases v with
    | array vs =>
      obtain ⟨inside, hinside, rfl⟩ := itemsText_of_array htext
      rw [Shape.reader, success_valueOf_array htext hblanks, success_nested_succ,
        List.cons_append, success_bracketed]
      exact shape.success_inOrder hfields (by simpa [Json.depth] using hdepth) hinside 0 0
        shape.blank rest
    | object ms =>
      obtain ⟨inside, hinside, rfl⟩ := membersText_of_object htext
      rw [Shape.reader, success_valueOf_object htext hblanks, success_nested_succ,
        List.cons_append, success_bracketed, success_closedBy, success_bind,
        success_membersToEnd (f := fun draft m => (shape.memberOfValue draft m).toOption) ?_
          hinside]
      · simp only [toOption_bind, toOption_foldlM, success_accept]
        cases ms.foldlM (fun draft m => (shape.memberOfValue draft m).toOption)
            ([] : Draft σ) with
        | none => rfl
        | some draft =>
          simp only [Option.map_some, Option.bind_some]
          cases (shape.complete draft).toOption <;> simp
      · intro draft m hm gap before text rest hgap hbefore htext hrest
        have hle := depth_le_of_mem_object hm hdepth
        exact shape.success_member hfields draft m hle hgap hbefore htext hrest
    | _ => exact absurd trivial hv

end Shape

namespace Tagged

variable (t : Tagged α)

theorem success_member {depth : Nat} (parts : Parts α) (m : String × Json)
    (hdepth : m.2.depth ≤ depth) {gap before text rest : List Char} (hgap : AllBlank gap)
    (hbefore : AllBlank before) (htext : IsText m.2 text) (hrest : Ends rest) :
    (t.member depth parts m.1).success (gap ++ ':' :: (before ++ (text ++ rest))) =
      (t.memberOfValue parts m).toOption.map fun t => (t, rest) := by
  rw [member, memberOfValue]
  by_cases htag : m.1 = t.tag
  · rw [if_pos htag, if_pos htag]
    by_cases hpayload : parts.payload.isSome
    · rw [if_pos hpayload, if_pos hpayload]
      rfl
    · have hkeyword := Reader.faithful_keyword "variant identifier" t.variants depth m.2 before text
        rest htext hdepth hbefore hrest
      rw [if_neg hpayload, if_neg hpayload, success_bind, success_colon hgap, Option.bind_some,
        success_bind, keyword, hkeyword, toOption_bind]
      cases ((Reader.keyword "variant identifier" t.variants).fromValue m.2).toOption <;> rfl
  · rw [if_neg htag, if_neg htag, success_bind, success_colon hgap, Option.bind_some,
      success_bind, success_read htext hdepth hbefore hrest]
    rfl

/-- The first item tells the variant, and the rest is kept as a list. -/
private theorem success_listForm {depth : Nat} {vs : List Json} (hdepth : itemsDepth vs ≤ depth)
    {cs : List Char} (h : ItemsText true vs cs) (rest : List Char) :
    (t.listForm depth).success (cs ++ rest) =
      match vs with
      | [] => none
      | v :: vs =>
        (t.keyword.fromValue v).toOption.map fun payload =>
          ((payload, .array vs), ']' :: rest) := by
  rw [listForm, success_bind]
  cases vs with
  | nil =>
    rw [success_nextItem_nil h]
    rfl
  | cons v vs =>
    obtain ⟨lead, before, inside, after, hlead, hbefore, hinside, hafter, rfl⟩ := h
    simp only [itemsDepth] at hdepth
    have hkeyword := Reader.faithful_keyword "variant identifier" t.variants depth v [] inside
      (after ++ rest) hinside (by omega) allBlank_nil (hafter.ends rest)
    have hitem : ∀ w ∈ vs, ∀ text rest, IsText w text → Ends rest →
        (read depth).success (text ++ rest) = (some w).map fun a => (a, rest) := by
      intro w hw text rest htext hrest
      have hitems := depth_le_itemsDepth hw
      exact success_read htext (by omega) allBlank_nil hrest
    have hothers := success_itemsToEnd hitem hafter rest
    simp only [List.nil_append, List.append_assoc] at hkeyword ⊢
    rw [success_nextItem_cons hlead hbefore hinside, Option.bind_some]
    simp only [if_true, success_bind, keyword, hkeyword]
    cases ((Reader.keyword "variant identifier" t.variants).fromValue v).toOption with
    | none => rfl
    | some payload => simp [hothers, mapM_some]

/-- The tag is found in a text as it is in its value, in both forms. -/
private theorem success_variantOfText {depth : Nat} {v : Json} {blanks text rest : List Char}
    (htext : IsText v text) (hdepth : v.depth ≤ depth) (hblanks : AllBlank blanks) :
    (t.variantOfText depth).success (blanks ++ (text ++ rest)) =
      (t.variantOfValue v).toOption.map fun p => (p, rest) := by
  by_cases hv : IsScalar v
  · have hvalue : (t.variantOfValue v).toOption = none := by
      cases v with
      | array vs => exact absurd hv id
      | object ms => exact absurd hv id
      | _ => rfl
    rw [hvalue, variantOfText, success_valueOf_wrongType htext hv hblanks]
    rfl
  cases depth with
  | zero =>
    cases v with
    | array vs => simp [Json.depth] at hdepth
    | object ms => simp [Json.depth] at hdepth
    | _ => exact absurd trivial hv
  | succ depth =>
    cases v with
    | array vs =>
      obtain ⟨inside, hinside, rfl⟩ := itemsText_of_array htext
      rw [variantOfText, success_valueOf_array htext hblanks, success_nested_succ,
        List.cons_append, success_bracketed, success_closedBy,
        t.success_listForm (by simpa [Json.depth] using hdepth) hinside]
      cases vs with
      | nil => rfl
      | cons v vs =>
        simp only [variantOfValue, toOption_bind]
        cases (t.keyword.fromValue v).toOption with
        | none => rfl
        | some payload =>
          simp only [Option.map_some, Option.bind_some, success_endList_cons]
          rfl
    | object ms =>
      obtain ⟨inside, hinside, rfl⟩ := membersText_of_object htext
      rw [variantOfText, success_valueOf_object htext hblanks, success_nested_succ,
        List.cons_append, success_bracketed, success_closedBy, success_bind,
        success_membersToEnd (f := fun parts m => (t.memberOfValue parts m).toOption) ?_
          hinside]
      · simp only [variantOfValue, toOption_bind, toOption_foldlM, success_accept]
        cases ms.foldlM (fun parts m => (t.memberOfValue parts m).toOption) ({} : Parts α) with
        | none => rfl
        | some parts =>
          simp only [Option.map_some, Option.bind_some]
          cases (Parts.complete t parts).toOption <;> simp
      · intro parts m hm gap before text rest hgap hbefore htext hrest
        have hle := depth_le_of_mem_object hm hdepth
        exact t.success_member parts m hle hgap hbefore htext hrest
    | _ => exact absurd trivial hv

/-- What is told by a tag is read faithfully, whatever its variants are: the payload is read from
a value in either case. -/
theorem faithful_reader : t.reader.Faithful := by
  intro depth v blanks text rest htext hdepth hblanks _
  simp only [Tagged.reader, success_bind, t.success_variantOfText htext hdepth hblanks,
    toOption_bind, success_accept]
  cases (t.variantOfValue v).toOption <;> rfl

end Tagged

theorem AllBlank.ends {cs : List Char} (h : AllBlank cs) : Ends cs :=
  fun c hc => Or.inl (h c (List.mem_of_mem_head? hc))

/-- A whole text is read as its value is. -/
theorem Reader.Faithful.parse_eq {r : Reader α} (h : r.Faithful) {source : String} {v : Json}
    (htext : Padded (IsText v) source.toList) (hdepth : v.depth ≤ depthLimit) :
    (r.parse source).toOption = (r.fromValue v).toOption := by
  obtain ⟨before, inside, after, hbefore, hinside, hafter, hsource⟩ := htext
  have hread := h depthLimit v before inside after hinside hdepth hbefore hafter.ends
  have hwhole : r.toEnd.success source.toList =
      (r.fromValue v).toOption.map fun a => (a, []) := by
    rw [hsource, List.append_assoc, Reader.toEnd, success_bind, hread]
    cases (r.fromValue v).toOption with
    | none => rfl
    | some a => simp [success_endText hafter]
  have hparse : (r.parse source).toOption = (r.toEnd.success source.toList).map Prod.fst := by
    unfold Reader.parse success
    cases r.toEnd source.toList <;> rfl
  rw [hparse, hwhole]
  cases (r.fromValue v).toOption <;> rfl

theorem Reader.Faithful.parse_ok_iff {r : Reader α} (h : r.Faithful) {source : String} {v : Json}
    (htext : Padded (IsText v) source.toList) (hdepth : v.depth ≤ depthLimit) {a : α} :
    r.parse source = .ok a ↔ r.fromValue v = .ok a := by
  rw [← toOption_eq_some_iff, ← toOption_eq_some_iff, h.parse_eq htext hdepth]

/-- A whole text is read as its value is, and the fault in it is that of the value. -/
theorem Reader.Exact.parse_eq {r : Reader α} (h : r.Exact) {source : String} {v : Json}
    (htext : Padded (IsText v) source.toList) (hdepth : v.depth ≤ depthLimit) :
    (r.parse source).mapError Error.cause = (r.fromValue v).mapError .unsuitable := by
  obtain ⟨before, inside, after, hbefore, hinside, hafter, hsource⟩ := htext
  have hread := h depthLimit v before inside after hinside hdepth hbefore hafter.ends
  have hwhole : r.toEnd.verdict source.toList =
      ((r.fromValue v).mapError .unsuitable).map fun a => (a, []) := by
    rw [hsource, List.append_assoc, Reader.toEnd, verdict_bind, hread]
    cases r.fromValue v with
    | error fault => rfl
    | ok a => exact verdict_of_success (by simp [success_endText hafter])
  have hparse : (r.parse source).mapError Error.cause =
      (r.toEnd.verdict source.toList).map Prod.fst := by
    unfold Reader.parse verdict
    cases r.toEnd source.toList <;> rfl
  rw [hparse, hwhole]
  cases r.fromValue v <;> rfl

/-- The fault of a text has a place besides. -/
theorem Reader.Exact.exists_parse_eq_error {r : Reader α} (h : r.Exact) {source : String}
    {v : Json} {fault : Unsuitable} (htext : Padded (IsText v) source.toList)
    (hdepth : v.depth ≤ depthLimit) (hvalue : r.fromValue v = .error fault) :
    ∃ position, r.parse source = .error ⟨.unsuitable fault, position⟩ := by
  have hparse := h.parse_eq htext hdepth
  rw [hvalue] at hparse
  cases hsource : r.parse source with
  | ok a => rw [hsource] at hparse; cases hparse
  | error e =>
    rw [hsource] at hparse
    have hcause : e.cause = .unsuitable fault := Except.error.inj hparse
    exact ⟨e.position, by rw [← hcause]⟩

end Json

end SceneScript
