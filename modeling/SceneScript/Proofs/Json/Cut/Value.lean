import SceneScript.Proofs.Json.Cut.Basic
import SceneScript.Proofs.Json.Read
import SceneScript.Proofs.Json.Render

/-!
Values of which the end is missing. The items and members before the cut are read; the one that is
cut notices, or the loop does when it looks for the next. Only values with nothing but strings at
their leaves are considered: the beginning of a number may well be a number itself.
-/
namespace SceneScript.Json

open Scan

variable {α σ : Type}

/-- Where a value could end, it can also end in a text that is cut behind it. -/
theorem Ends.of_cut {whole cs : List Char} (h : Ends whole) (hcs : Cut whole cs) : Ends cs := by
  obtain ⟨rest, _, rfl⟩ := hcs
  intro c hc
  cases cs with
  | nil => simp at hc
  | cons d cs => exact h c hc

/-! What stands between values -/

theorem breaks_colon {cs : List Char} (h : AllBlank cs) : colon.Breaks cs := by
  rw [Breaks, colon, skipBlanks_allBlank h]
  exact breaks_failAtNext rfl []

/-- Behind an item a comma or the end of the list is wanted. -/
theorem breaks_nextItem {cs : List Char} (h : AllBlank cs) (isFirst : Bool) :
    (nextItem isFirst).Breaks cs := by
  rw [Breaks, nextItem, skipBlanks_allBlank h]
  exact breaks_failAtNext rfl []

/-- Behind a comma another item is wanted, and in front of the first one an item or the end. -/
theorem breaks_nextItem_of_lead {isFirst : Bool} {lead cs : List Char} (hlead : Lead isFirst lead)
    (h : AllBlank cs) : (nextItem isFirst).Breaks (lead ++ cs) := by
  cases isFirst with
  | true =>
    obtain rfl : lead = [] := hlead
    exact breaks_nextItem h true
  | false =>
    obtain ⟨blanks, hblanks, rfl⟩ := hlead
    have hcomma : isBlank ',' = false := by decide
    refine (breaks_failAtNext (α := Bool) (m := .endInValue) rfl []).of_eq ?_
    simp only [List.append_assoc, List.cons_append, List.nil_append, nextItem,
      skipBlanks_append_cons hblanks hcomma, skipBlanks_allBlank h]
    rfl

theorem breaks_nextKey {cs : List Char} (h : AllBlank cs) (isFirst : Bool) :
    (nextKey isFirst).Breaks cs := by
  rw [Breaks, nextKey, skipBlanks_allBlank h]
  exact breaks_failAtNext rfl []

theorem breaks_nextKey_of_lead {isFirst : Bool} {lead cs : List Char} (hlead : Lead isFirst lead)
    (h : AllBlank cs) : (nextKey isFirst).Breaks (lead ++ cs) := by
  cases isFirst with
  | true =>
    obtain rfl : lead = [] := hlead
    exact breaks_nextKey h true
  | false =>
    obtain ⟨blanks, hblanks, rfl⟩ := hlead
    have hcomma : isBlank ',' = false := by decide
    refine (breaks_failAtNext (α := Option String) (m := .endInValue) rfl []).of_eq ?_
    simp only [List.append_assoc, List.cons_append, List.nil_append, nextKey,
      skipBlanks_append_cons hblanks hcomma, skipBlanks_allBlank h]
    rfl

/-- A blank cut of what stands in front of an item or a member. -/
theorem allBlank_of_cut_lead {isFirst : Bool} {lead cs : List Char} (hlead : Lead isFirst lead)
    (h : Cut lead cs) : AllBlank cs := by
  cases isFirst with
  | true =>
    obtain rfl : lead = [] := hlead
    exact absurd h (not_cut_nil cs)
  | false =>
    obtain ⟨blanks, hblanks, rfl⟩ := hlead
    exact h.allBlank_of_snoc hblanks

/-- A key that is cut, in its string or in front of it. -/
theorem breaks_nextKey_of_string {isFirst : Bool} {lead before key inside cs : List Char}
    (hlead : Lead isFirst lead) (hbefore : AllBlank before) (hinside : SpellsChars key inside)
    (h : Cut (inside ++ ['"']) cs) :
    (nextKey isFirst).Breaks (lead ++ (before ++ '"' :: cs)) := by
  have hquote : isBlank '"' = false := by decide
  have hread : (some <$> readString).Breaks cs := (breaks_readString hinside h).map some
  apply hread.of_eq
  cases isFirst with
  | true =>
    obtain rfl : lead = [] := hlead
    simp only [List.nil_append, nextKey, skipBlanks_append_cons hbefore hquote]
    rfl
  | false =>
    obtain ⟨blanks, hblanks, rfl⟩ := hlead
    have hcomma : isBlank ',' = false := by decide
    simp only [List.append_assoc, List.cons_append, List.nil_append, nextKey,
      skipBlanks_append_cons hblanks hcomma, skipBlanks_append_cons hbefore hquote]
    rfl

/-! The loops -/

/-- A list of which the end is missing. A loop that has run out of rounds would say the same. -/
theorem breaks_items {item : Scan α} {vs : List Json}
    (hread : ∀ v ∈ vs, ∀ text rest, IsText v text → Ends rest →
      ∃ a, item.success (text ++ rest) = some (a, rest))
    (hcut : ∀ v ∈ vs, ∀ text cs, IsText v text → Cut text cs → item.Breaks cs)
    {isFirst : Bool} {whole cs : List Char} (h : ItemsText isFirst vs whole) (hcs : Cut whole cs)
    (rounds : Nat) : (items item rounds isFirst).Breaks cs := by
  induction vs generalizing rounds isFirst whole cs with
  | nil =>
    cases rounds with
    | zero => exact breaks_failHere rfl cs
    | succ rounds =>
      obtain ⟨blanks, hblanks, rfl⟩ := h
      rw [items]
      exact (breaks_nextItem (hcs.allBlank_of_snoc hblanks) isFirst).bind _
  | cons v vs ih =>
    cases rounds with
    | zero => exact breaks_failHere rfl cs
    | succ rounds =>
      obtain ⟨lead, before, inside, after, hlead, hbefore, hinside, hafter, rfl⟩ := h
      rw [items]
      rcases cut_append_iff.mp hcs with hlack | ⟨behind, rfl, hbehind⟩
      · exact (breaks_nextItem (allBlank_of_cut_lead hlead hlack) isFirst).bind _
      rcases cut_append_iff.mp hbehind with hblank | ⟨cs, rfl, hvalue⟩
      · exact (breaks_nextItem_of_lead hlead (hblank.allBlank hbefore)).bind _
      rcases cut_append_iff.mp hvalue with hlack | ⟨cs, rfl, hothers⟩
      · obtain ⟨c, tail, rfl, hblank, hend⟩ := IsText.eq_cons hinside
        have hitem := hcut v (List.mem_cons_self ..) _ cs hinside hlack
        rcases cut_cons_iff.mp hlack with rfl | ⟨tail, rfl, _⟩
        · rw [List.append_nil]
          exact (breaks_nextItem_of_lead hlead hbefore).bind _
        · exact breaks_bind_of_success (success_nextItem_of_head hlead hbefore hblank hend tail)
            (hitem.bind _)
      · have hends : Ends cs := by
          have hwhole := hafter.ends []
          rw [List.append_nil] at hwhole
          exact hwhole.of_cut hothers
        obtain ⟨a, ha⟩ := hread v (List.mem_cons_self ..) inside cs hinside hends
        have hloop := ih (fun w hw => hread w (List.mem_cons_of_mem v hw))
          (fun w hw => hcut w (List.mem_cons_of_mem v hw)) hafter hothers rounds
        exact breaks_bind_of_success (success_nextItem_cons hlead hbefore hinside cs)
          (breaks_bind_of_success ha (hloop.bind _))

/-- An object of which the end is missing, when its members can be read. -/
theorem breaks_members {member : σ → String → Scan σ} {f : σ → String × Json → Option σ}
    {ms : List (String × Json)}
    (hread : ∀ s, ∀ m ∈ ms, ∀ gap before text rest, AllBlank gap → AllBlank before →
      IsText m.2 text → Ends rest →
      (member s m.1).success (gap ++ ':' :: (before ++ (text ++ rest))) =
        (f s m).map fun t => (t, rest))
    (hcut : ∀ s t, ∀ m ∈ ms, f s m = some t → ∀ gap before text cs, AllBlank gap →
      AllBlank before → IsText m.2 text → Cut (gap ++ ':' :: (before ++ text)) cs →
      (member s m.1).Breaks cs)
    {isFirst : Bool} {whole cs : List Char} (h : MembersText isFirst ms whole)
    (hcs : Cut whole cs) (rounds : Nat) {s t : σ} (hs : ms.foldlM f s = some t) :
    (members member rounds isFirst s).Breaks cs := by
  induction ms generalizing rounds isFirst whole cs s with
  | nil =>
    cases rounds with
    | zero => exact breaks_failHere rfl cs
    | succ rounds =>
      obtain ⟨blanks, hblanks, rfl⟩ := h
      rw [members]
      exact (breaks_nextKey (hcs.allBlank_of_snoc hblanks) isFirst).bind _
  | cons m ms ih =>
    cases rounds with
    | zero => exact breaks_failHere rfl cs
    | succ rounds =>
      obtain ⟨lead, before, key, gap, before', inside, after, hlead, hbefore, hkey, hgap, hbefore',
        hinside, hafter, rfl⟩ := h
      rw [List.foldlM_cons] at hs
      obtain ⟨u, hu, hs⟩ := Option.bind_eq_some_iff.mp hs
      rw [members]
      rcases cut_append_iff.mp hcs with hlack | ⟨behind, rfl, hbehind⟩
      · exact (breaks_nextKey (allBlank_of_cut_lead hlead hlack) isFirst).bind _
      rcases cut_append_iff.mp hbehind with hblank | ⟨cs, rfl, hmember⟩
      · exact (breaks_nextKey_of_lead hlead (hblank.allBlank hbefore)).bind _
      rcases cut_cons_iff.mp hmember with rfl | ⟨cs, rfl, hstring⟩
      · rw [List.append_nil]
        exact (breaks_nextKey_of_lead hlead hbefore).bind _
      rw [List.append_cons] at hstring
      rcases cut_append_iff.mp hstring with hlack | ⟨cs, rfl, hvalue⟩
      · exact (breaks_nextKey_of_string hlead hbefore hkey hlack).bind _
      rw [List.append_assoc, List.singleton_append]
      apply breaks_bind_of_success (success_nextKey_cons hlead hbefore hkey cs)
      have hsplit : gap ++ ':' :: (before' ++ (inside ++ after)) =
          (gap ++ ':' :: (before' ++ inside)) ++ after := by simp
      rw [hsplit] at hvalue
      rcases cut_append_iff.mp hvalue with hlack | ⟨cs, rfl, hothers⟩
      · exact (hcut s u m (List.mem_cons_self ..) hu gap before' inside cs hgap hbefore' hinside
          hlack).bind _
      · have hends : Ends cs := by
          have hwhole := hafter.ends []
          rw [List.append_nil] at hwhole
          exact hwhole.of_cut hothers
        have hfirst := hread s m (List.mem_cons_self ..) gap before' inside cs hgap hbefore' hinside
          hends
        rw [hu, Option.map_some] at hfirst
        have hloop := ih (fun s n hn => hread s n (List.mem_cons_of_mem m hn))
          (fun s t n hn => hcut s t n (List.mem_cons_of_mem m hn)) hafter hothers rounds hs
        simp only [List.append_assoc, List.cons_append]
        exact breaks_bind_of_success hfirst hloop

/-! Values -/

section

variable {list object other : Scan α} {blanks : List Char}

theorem breaks_valueOf_nil (hblanks : AllBlank blanks) :
    (valueOf list object other).Breaks blanks := by
  apply Breaks.placed
  apply (breaks_failAtNext (m := .endInValue) rfl []).of_eq
  simp only [skipBlanks_allBlank hblanks]

/-- A list that is cut is left to the reader of lists, or nothing of it is there. -/
theorem breaks_valueOf_list (hblanks : AllBlank blanks) {inside cs : List Char}
    (hcs : Cut ('[' :: inside) cs) (h : ∀ tail, Cut inside tail → list.Breaks ('[' :: tail)) :
    (valueOf list object other).Breaks (blanks ++ cs) := by
  have hlist : isBlank '[' = false := by decide
  rcases cut_cons_iff.mp hcs with rfl | ⟨tail, rfl, hlack⟩
  · rw [List.append_nil]
    exact breaks_valueOf_nil hblanks
  · apply Breaks.placed
    apply (h tail hlack).of_eq
    simp only [skipBlanks_append_cons hblanks hlist, if_true]

theorem breaks_valueOf_object (hblanks : AllBlank blanks) {inside cs : List Char}
    (hcs : Cut ('{' :: inside) cs) (h : ∀ tail, Cut inside tail → object.Breaks ('{' :: tail)) :
    (valueOf list object other).Breaks (blanks ++ cs) := by
  have hobject : isBlank '{' = false := by decide
  rcases cut_cons_iff.mp hcs with rfl | ⟨tail, rfl, hlack⟩
  · rw [List.append_nil]
    exact breaks_valueOf_nil hblanks
  · apply Breaks.placed
    apply (h tail hlack).of_eq
    simp only [skipBlanks_append_cons hblanks hobject]
    rfl

theorem breaks_valueOf_other (hblanks : AllBlank blanks) {c : Char} (hblank : isBlank c = false)
    (hlist : c ≠ '[') (hobject : c ≠ '{') {cs : List Char} (h : other.Breaks (c :: cs)) :
    (valueOf list object other).Breaks (blanks ++ c :: cs) := by
  apply Breaks.placed
  apply h.of_eq
  simp only [skipBlanks_append_cons hblanks hblank, hlist, hobject, if_false]

end

/-- A value behind the colon that stands between a key and its value. -/
theorem breaks_behindColon {value : Scan α} {gap before text cs : List Char} (hgap : AllBlank gap)
    (hbefore : AllBlank before) (htext : text ≠ [])
    (hvalue : ∀ blanks cs, AllBlank blanks → Cut text cs → value.Breaks (blanks ++ cs))
    (hcs : Cut (gap ++ ':' :: (before ++ text)) cs) : (do colon; value).Breaks cs := by
  have hnil (blanks : List Char) (hblanks : AllBlank blanks) : value.Breaks blanks := by
    have hcut := hvalue blanks [] hblanks ⟨text, htext, rfl⟩
    rwa [List.append_nil] at hcut
  rcases cut_append_iff.mp hcs with hlack | ⟨behind, rfl, hbehind⟩
  · exact (breaks_colon (hlack.allBlank hgap)).bind _
  rcases cut_cons_iff.mp hbehind with rfl | ⟨cs, rfl, hinside⟩
  · rw [List.append_nil]
    exact (breaks_colon hgap).bind _
  apply breaks_bind_of_success (success_colon hgap cs)
  rcases cut_append_iff.mp hinside with hlack | ⟨cs, rfl, hlack⟩
  · exact hnil cs (hlack.allBlank hbefore)
  · exact hvalue before cs hbefore hlack

/-- Strings notice their end by themselves, whatever reader they are met by. -/
private theorem breaks_read_string {depth : Nat} {s : String} {blanks text cs : List Char}
    (htext : IsText (.string s) text) (hblanks : AllBlank blanks) (hcs : Cut text cs) :
    (read depth).Breaks (blanks ++ cs) := by
  obtain ⟨inside, hinside, rfl⟩ := htext
  have hvalue {list object : Scan Json} : (valueOf list object scalar).Breaks (blanks ++ cs) := by
    rcases cut_cons_iff.mp hcs with rfl | ⟨tail, rfl, hlack⟩
    · rw [List.append_nil]
      exact breaks_valueOf_nil hblanks
    · apply breaks_valueOf_other hblanks (by decide) (by decide) (by decide)
      exact ((breaks_readString hinside hlack).map Json.string).of_eq rfl
  cases depth with
  | zero => exact hvalue
  | succ depth => exact hvalue

/-- A value with nothing but strings at its leaves, of which the end is missing. -/
theorem breaks_read {depth : Nat} {v : Json} (hv : v.IsTextual) (hdepth : v.depth ≤ depth)
    {blanks text cs : List Char} (htext : IsText v text) (hblanks : AllBlank blanks)
    (hcs : Cut text cs) : (read depth).Breaks (blanks ++ cs) := by
  induction depth generalizing v blanks text cs with
  | zero =>
    cases v with
    | string s => exact breaks_read_string htext hblanks hcs
    | array vs => simp [Json.depth] at hdepth
    | object ms => simp [Json.depth] at hdepth
    | _ => exact hv.elim
  | succ depth ih =>
    cases v with
    | string s => exact breaks_read_string htext hblanks hcs
    | array vs =>
      obtain ⟨inside, hinside, rfl⟩ := itemsText_of_array htext
      have hvs : ∀ w ∈ vs, w.IsTextual := itemsTextual_iff.mp hv
      rw [read]
      apply breaks_valueOf_list hblanks hcs
      intro cs hlack
      apply Breaks.closedBy
      apply Breaks.map
      apply breaks_items _ _ hinside hlack
      · intro w hw text rest htext hrest
        exact ⟨w, success_read htext (depth_le_of_mem_array hw hdepth) allBlank_nil hrest⟩
      · intro w hw text cs htext hlack
        exact ih (hvs w hw) (depth_le_of_mem_array hw hdepth) htext allBlank_nil hlack
    | object ms =>
      obtain ⟨inside, hinside, rfl⟩ := membersText_of_object htext
      have hms : ∀ m ∈ ms, m.2.IsTextual := membersTextual_iff.mp hv
      rw [read]
      apply breaks_valueOf_object hblanks hcs
      intro cs hlack
      apply Breaks.closedBy
      apply Breaks.map
      apply breaks_members _ _ hinside hlack _ (foldlM_snoc [] ms)
      · intro s m hm gap before text rest hgap hbefore htext hrest
        have hvalue := success_read htext (depth_le_of_mem_object hm hdepth) hbefore hrest
        exact success_readMember m s hgap hvalue
      · intro s t m hm _ gap before text cs hgap hbefore htext hlack
        obtain ⟨c, tail, rfl, _⟩ := IsText.eq_cons htext
        apply breaks_behindColon hgap hbefore (List.cons_ne_nil c tail) _ hlack
        intro blanks cs hblanks hlack
        exact (ih (hms m hm) (depth_le_of_mem_object hm hdepth) htext hblanks hlack).bind _
    | _ => exact hv.elim

end SceneScript.Json
