import SceneScript.Proofs.Json.Scalar

/-!
Loops over items and members against the grammar, for any reader of a single item or member. A
place in front of an item or a member is described by the text up to the closing bracket, so that
one round of a loop leads from such a place to the next.
-/
namespace SceneScript.Json

open Scan

/-! Items -/

/-- What stands in front of an item or a member: nothing, or the comma behind the one before. -/
def Lead (isFirst : Bool) (cs : List Char) : Prop :=
  if isFirst then cs = [] else ∃ blanks, AllBlank blanks ∧ cs = blanks ++ [',']

def ItemsText (isFirst : Bool) : List Json → List Char → Prop
  | [], cs => ∃ blanks, AllBlank blanks ∧ cs = blanks ++ [']']
  | v :: vs, cs =>
    ∃ lead before inside after, Lead isFirst lead ∧ AllBlank before ∧ IsText v inside ∧
      ItemsText false vs after ∧ cs = lead ++ (before ++ (inside ++ after))

private theorem itemsText_behind {vs : List Json} {blanks others : List Char}
    (hblanks : AllBlank blanks) (hothers : SpellsItems NumberLiteral.Reads vs others) :
    ItemsText false vs (blanks ++ others) := by
  induction vs generalizing blanks others with
  | nil => exact ⟨blanks, hblanks, congrArg (blanks ++ ·) hothers⟩
  | cons v vs ih =>
    obtain ⟨first, others, ⟨before, inside, after, hbefore, hinside, hafter, rfl⟩, hothers, rfl⟩ :=
      hothers
    have hlead : Lead false (blanks ++ [',']) := ⟨blanks, hblanks, rfl⟩
    have hbehind := ih hafter hothers
    exact ⟨blanks ++ [','], before, inside, after ++ others, hlead, hbefore, hinside, hbehind,
      by simp⟩

theorem itemsText_of_array {vs : List Json} {cs : List Char} (h : IsText (.array vs) cs) :
    ∃ inside, ItemsText true vs inside ∧ cs = '[' :: inside := by
  cases vs with
  | nil =>
    obtain ⟨blanks, hblanks, rfl⟩ := h
    exact ⟨blanks ++ [']'], ⟨blanks, hblanks, rfl⟩, rfl⟩
  | cons v vs =>
    obtain ⟨first, others, ⟨before, inside, after, hbefore, hinside, hafter, rfl⟩, hothers, rfl⟩ :=
      h
    have hbehind := itemsText_behind hafter hothers
    have hitems : ItemsText true (v :: vs) (before ++ (inside ++ (after ++ others))) :=
      ⟨[], before, inside, after ++ others, rfl, hbefore, hinside, hbehind, rfl⟩
    exact ⟨before ++ (inside ++ (after ++ others)), hitems, by simp⟩

private theorem ends_of_blanks {blanks : List Char} (hblanks : AllBlank blanks) {c : Char}
    (hc : c = ',' ∨ c = ']' ∨ c = '}') (cs : List Char) : Ends (blanks ++ c :: cs) := by
  intro d hd
  cases blanks with
  | cons b blanks =>
    have hdb : d = b := by simpa [eq_comm] using hd
    rw [hdb]
    exact Or.inl (hblanks b (List.mem_cons_self ..))
  | nil =>
    have hdc : d = c := by simpa [eq_comm] using hd
    rw [hdc]
    exact Or.inr hc

theorem ItemsText.ends {vs : List Json} {cs : List Char} (h : ItemsText false vs cs)
    (rest : List Char) : Ends (cs ++ rest) := by
  cases vs with
  | nil =>
    obtain ⟨blanks, hblanks, rfl⟩ := h
    have hends := ends_of_blanks hblanks (Or.inr (Or.inl rfl)) rest
    simpa using hends
  | cons v vs =>
    obtain ⟨_, before, inside, after, ⟨blanks, hblanks, rfl⟩, _, _, _, rfl⟩ := h
    have hends := ends_of_blanks hblanks (Or.inl rfl) (before ++ (inside ++ (after ++ rest)))
    simpa using hends

/-- Each item takes room in the text, so there are more characters than rounds. -/
theorem ItemsText.length_lt {isFirst : Bool} {vs : List Json} {cs : List Char}
    (h : ItemsText isFirst vs cs) : vs.length < cs.length := by
  induction vs generalizing isFirst cs with
  | nil =>
    obtain ⟨blanks, _, rfl⟩ := h
    simp
  | cons v vs ih =>
    obtain ⟨lead, before, inside, after, _, _, hinside, hafter, rfl⟩ := h
    obtain ⟨c, tail, rfl, _⟩ := IsText.eq_cons hinside
    have hvs := ih hafter
    simp only [List.length_cons, List.length_append]
    omega

theorem success_nextItem_nil {isFirst : Bool} {cs : List Char} (h : ItemsText isFirst [] cs)
    (rest : List Char) : (nextItem isFirst).success (cs ++ rest) = some (false, ']' :: rest) := by
  obtain ⟨blanks, hblanks, rfl⟩ := h
  rw [List.append_assoc, List.cons_append, List.nil_append, success, nextItem,
    skipBlanks_append_cons hblanks (by decide)]
  rfl

/-- An item is told by its first character. -/
theorem success_nextItem_of_head {isFirst : Bool} {lead before : List Char}
    (hlead : Lead isFirst lead) (hbefore : AllBlank before) {c : Char} (hblank : isBlank c = false)
    (hend : c ≠ ']') (tail : List Char) :
    (nextItem isFirst).success (lead ++ (before ++ c :: tail)) = some (true, c :: tail) := by
  cases isFirst with
  | true =>
    obtain rfl : lead = [] := hlead
    simp only [List.nil_append, success, nextItem, skipBlanks_append_cons hbefore hblank, hend,
      if_true, if_false]
  | false =>
    obtain ⟨blanks, hblanks, rfl⟩ := hlead
    have hcomma : isBlank ',' = false := by decide
    simp only [List.append_assoc, List.cons_append, List.nil_append, success, nextItem,
      skipBlanks_append_cons hblanks hcomma, skipBlanks_append_cons hbefore hblank, hend,
      if_false, Bool.false_eq_true]
    rfl

/-- The comma is read with the blanks behind it, up to the item. -/
theorem success_nextItem_cons {isFirst : Bool} {v : Json} {lead before inside : List Char}
    (hlead : Lead isFirst lead) (hbefore : AllBlank before) (hinside : IsText v inside)
    (rest : List Char) :
    (nextItem isFirst).success (lead ++ (before ++ (inside ++ rest))) =
      some (true, inside ++ rest) := by
  obtain ⟨c, tail, rfl, hblank, hend⟩ := IsText.eq_cons hinside
  exact success_nextItem_of_head hlead hbefore hblank hend (tail ++ rest)

section

variable {α σ : Type}

/-- A loop over items reads each of them, as long as there are enough rounds. -/
theorem success_items {item : Scan α} {f : Json → Option α} {vs : List Json}
    (hitem : ∀ v ∈ vs, ∀ text rest, IsText v text → Ends rest →
      item.success (text ++ rest) = (f v).map fun a => (a, rest))
    {rounds : Nat} {isFirst : Bool} {cs : List Char} (h : ItemsText isFirst vs cs)
    (hrounds : vs.length < rounds) (rest : List Char) :
    (items item rounds isFirst).success (cs ++ rest) =
      (vs.mapM f).map fun as => (as, ']' :: rest) := by
  induction vs generalizing rounds isFirst cs with
  | nil =>
    cases rounds with
    | zero => simp at hrounds
    | succ rounds =>
      rw [items, success_bind, success_nextItem_nil h, Option.bind_some]
      rfl
  | cons v vs ih =>
    cases rounds with
    | zero => simp at hrounds
    | succ rounds =>
      obtain ⟨lead, before, inside, after, hlead, hbefore, hinside, hafter, rfl⟩ := h
      have hfirst := hitem v (List.mem_cons_self ..) inside (after ++ rest) hinside
        (hafter.ends rest)
      have hmore : vs.length < rounds := by simpa using hrounds
      have hothers := ih (fun w hw => hitem w (List.mem_cons_of_mem v hw)) hafter hmore
      simp only [List.append_assoc]
      rw [items, success_bind, success_nextItem_cons hlead hbefore hinside, Option.bind_some]
      simp only [if_true, success_bind, hfirst, List.mapM_cons]
      cases f v with
      | none => rfl
      | some a =>
        simp only [Option.map_some, Option.bind_some, hothers, Option.bind_eq_bind, success_pure]
        cases vs.mapM f <;> rfl

/-- Items that are read one by one are read as a list, whatever stands between them. -/
theorem success_itemsToEnd {item : Scan α} {f : Json → Option α} {vs : List Json}
    (hitem : ∀ v ∈ vs, ∀ text rest, IsText v text → Ends rest →
      item.success (text ++ rest) = (f v).map fun a => (a, rest))
    {isFirst : Bool} {cs : List Char} (h : ItemsText isFirst vs cs) (rest : List Char) :
    (itemsToEnd item isFirst).success (cs ++ rest) =
      (vs.mapM f).map fun as => (as, ']' :: rest) := by
  have hlength := h.length_lt
  apply success_items hitem h
  simp only [List.length_append]
  omega

end

/-- A loop that passes over items passes over the end of the list too. -/
theorem success_skipItems (item : Scan Unit) {vs : List Json} {isFirst : Bool} {cs : List Char}
    (hitem : ∀ v ∈ vs, ∀ blanks text rest, AllBlank blanks → IsText v text → Ends rest →
      text.length ≤ cs.length → item.success (blanks ++ (text ++ rest)) = some ((), rest))
    (rounds : Nat) (h : ItemsText isFirst vs cs) (hrounds : vs.length < rounds)
    (rest : List Char) :
    (skipItems item rounds isFirst).success (cs ++ rest) = some ((), rest) := by
  induction vs generalizing rounds isFirst cs with
  | nil =>
    cases rounds with
    | zero => simp at hrounds
    | succ rounds =>
      obtain ⟨blanks, hblanks, rfl⟩ := h
      have hend : isBlank ']' = false := by decide
      simp only [List.append_assoc, List.cons_append, List.nil_append, success, skipItems,
        skipBlanks_append_cons hblanks hend, if_true]
  | cons v vs ih =>
    cases rounds with
    | zero => simp at hrounds
    | succ rounds =>
      obtain ⟨lead, before, inside, after, hlead, hbefore, hinside, hafter, rfl⟩ := h
      have hothers : (skipItems item rounds false).success (after ++ rest) = some ((), rest) := by
        apply ih _ rounds hafter (by simpa using hrounds)
        intro w hw blanks text rest hblanks htext hrest hlength
        apply hitem w (List.mem_cons_of_mem v hw) blanks text rest hblanks htext hrest
        simp only [List.length_append]
        omega
      -- The first item is met behind its white space, a later one in front of it.
      have hstep : ∀ blanks, AllBlank blanks →
          success (do item; skipItems item rounds false)
            (blanks ++ (inside ++ (after ++ rest))) = some ((), rest) := by
        intro blanks hblanks
        have hfirst : item.success (blanks ++ (inside ++ (after ++ rest))) =
            some ((), after ++ rest) := by
          apply hitem v (List.mem_cons_self ..) blanks inside (after ++ rest) hblanks hinside
            (hafter.ends rest)
          simp only [List.length_append]
          omega
        rw [success_bind, hfirst, Option.bind_some, hothers]
      simp only [List.append_assoc]
      cases isFirst with
      | true =>
        obtain rfl : lead = [] := hlead
        obtain ⟨c, tail, rfl, hblank, hend⟩ := IsText.eq_cons hinside
        rw [← hstep [] allBlank_nil]
        simp only [List.nil_append, List.cons_append, success, skipItems,
          skipBlanks_append_cons hbefore hblank, hend, if_true, if_false]
      | false =>
        obtain ⟨blanks, hblanks, rfl⟩ := hlead
        have hcomma : isBlank ',' = false := by decide
        rw [← hstep before hbefore]
        simp only [List.append_assoc, List.cons_append, List.nil_append, success, skipItems,
          skipBlanks_append_cons hblanks hcomma, if_false, Bool.false_eq_true]
        rfl

/-! Members -/

def MembersText (isFirst : Bool) : List (String × Json) → List Char → Prop
  | [], cs => ∃ blanks, AllBlank blanks ∧ cs = blanks ++ ['}']
  | (k, v) :: ms, cs =>
    ∃ lead before key gap before' inside after, Lead isFirst lead ∧ AllBlank before ∧
      SpellsChars k.toList key ∧ AllBlank gap ∧ AllBlank before' ∧ IsText v inside ∧
      MembersText false ms after ∧
      cs = lead ++ (before ++ '"' :: (key ++ '"' :: (gap ++ ':' :: (before' ++ (inside ++ after)))))

private theorem membersText_behind {ms : List (String × Json)} {blanks others : List Char}
    (hblanks : AllBlank blanks) (hothers : SpellsMembers NumberLiteral.Reads ms others) :
    MembersText false ms (blanks ++ others) := by
  induction ms generalizing blanks others with
  | nil => exact ⟨blanks, hblanks, congrArg (blanks ++ ·) hothers⟩
  | cons m ms ih =>
    obtain ⟨_, _, others, ⟨before, _, gap, hbefore, ⟨key, hkey, rfl⟩, hgap, rfl⟩,
      ⟨before', inside, after, hbefore', hinside, hafter, rfl⟩, hothers, rfl⟩ := hothers
    have hlead : Lead false (blanks ++ [',']) := ⟨blanks, hblanks, rfl⟩
    have hbehind := ih hafter hothers
    exact ⟨blanks ++ [','], before, key, gap, before', inside, after ++ others, hlead, hbefore,
      hkey, hgap, hbefore', hinside, hbehind, by simp⟩

theorem membersText_of_object {ms : List (String × Json)} {cs : List Char}
    (h : IsText (.object ms) cs) : ∃ inside, MembersText true ms inside ∧ cs = '{' :: inside := by
  cases ms with
  | nil =>
    obtain ⟨blanks, hblanks, rfl⟩ := h
    exact ⟨blanks ++ ['}'], ⟨blanks, hblanks, rfl⟩, rfl⟩
  | cons m ms =>
    obtain ⟨_, _, others, ⟨before, _, gap, hbefore, ⟨key, hkey, rfl⟩, hgap, rfl⟩,
      ⟨before', inside, after, hbefore', hinside, hafter, rfl⟩, hothers, rfl⟩ := h
    have hbehind := membersText_behind hafter hothers
    exact ⟨_, ⟨[], before, key, gap, before', inside, after ++ others, rfl, hbefore, hkey, hgap,
      hbefore', hinside, hbehind, rfl⟩, by simp⟩

theorem MembersText.ends {ms : List (String × Json)} {cs : List Char} (h : MembersText false ms cs)
    (rest : List Char) : Ends (cs ++ rest) := by
  cases ms with
  | nil =>
    obtain ⟨blanks, hblanks, rfl⟩ := h
    have hends := ends_of_blanks hblanks (Or.inr (Or.inr rfl)) rest
    simpa using hends
  | cons m ms =>
    obtain ⟨_, before, key, gap, before', inside, after, ⟨blanks, hblanks, rfl⟩, _, _, _, _, _, _,
      rfl⟩ := h
    simpa using ends_of_blanks hblanks (Or.inl rfl) _

theorem MembersText.length_lt {isFirst : Bool} {ms : List (String × Json)} {cs : List Char}
    (h : MembersText isFirst ms cs) : ms.length < cs.length := by
  induction ms generalizing isFirst cs with
  | nil =>
    obtain ⟨blanks, _, rfl⟩ := h
    simp
  | cons m ms ih =>
    obtain ⟨_, before, key, gap, before', inside, after, _, _, _, _, _, _, hafter, rfl⟩ := h
    have hms := ih hafter
    simp only [List.length_cons, List.length_append]
    omega

theorem success_nextKey_nil {isFirst : Bool} {cs : List Char} (h : MembersText isFirst [] cs)
    (rest : List Char) : (nextKey isFirst).success (cs ++ rest) = some (none, '}' :: rest) := by
  obtain ⟨blanks, hblanks, rfl⟩ := h
  rw [List.append_assoc, List.cons_append, List.nil_append, success, nextKey,
    skipBlanks_append_cons hblanks (by decide)]
  rfl

theorem success_nextKey_cons {isFirst : Bool} {k : String} {lead before key : List Char}
    (hlead : Lead isFirst lead) (hbefore : AllBlank before) (hkey : SpellsChars k.toList key)
    (rest : List Char) :
    (nextKey isFirst).success (lead ++ (before ++ '"' :: (key ++ '"' :: rest))) =
      some (some k, rest) := by
  have hquote : isBlank '"' = false := by decide
  have hread : success (some <$> readString) (key ++ '"' :: rest) = some (some k, rest) := by
    rw [success_map, success_readString hkey, Option.map_some]
  cases isFirst with
  | true =>
    obtain rfl : lead = [] := hlead
    rw [← hread]
    simp only [List.nil_append, success, nextKey, skipBlanks_append_cons hbefore hquote]
    rfl
  | false =>
    obtain ⟨blanks, hblanks, rfl⟩ := hlead
    have hcomma : isBlank ',' = false := by decide
    rw [← hread]
    simp only [List.append_assoc, List.cons_append, List.nil_append, success, nextKey,
      skipBlanks_append_cons hblanks hcomma, skipBlanks_append_cons hbefore hquote]
    rfl

theorem success_skipKey {k : String} {before key gap : List Char} (hbefore : AllBlank before)
    (hkey : SpellsChars k.toList key) (hgap : AllBlank gap) (rest : List Char) :
    skipKey.success (before ++ '"' :: (key ++ '"' :: (gap ++ ':' :: rest))) = some ((), rest) := by
  have hquote : isBlank '"' = false := by decide
  have hskip : success (do skipString; colon) (key ++ '"' :: (gap ++ ':' :: rest)) =
      some ((), rest) := by
    rw [success_bind, success_skipString hkey, Option.bind_some, success_colon hgap]
  rw [← hskip]
  simp only [success, skipKey, skipBlanks_append_cons hbefore hquote, if_true]

section

variable {σ : Type}

/-- A round of a loop over members that finds the end. -/
theorem members_nil {member : σ → String → Scan σ} {isFirst : Bool} {cs : List Char}
    (h : MembersText isFirst [] cs) (rounds : Nat) (s : σ) (rest : List Char) :
    members member (rounds + 1) isFirst s (cs ++ rest) = .ok s ('}' :: rest) := by
  rw [members]
  exact bind_of_success (success_nextKey_nil h rest)

/-- A round of a loop over members that finds one. -/
theorem members_cons {member : σ → String → Scan σ} {isFirst : Bool} {m : String × Json}
    {ms : List (String × Json)} {cs : List Char} (h : MembersText isFirst (m :: ms) cs)
    (rounds : Nat) (s : σ) (rest : List Char) :
    ∃ gap before text after, AllBlank gap ∧ AllBlank before ∧ IsText m.2 text ∧
      MembersText false ms after ∧
      members member (rounds + 1) isFirst s (cs ++ rest) =
        (do members member rounds false (← member s m.1) : Scan σ)
          (gap ++ ':' :: (before ++ (text ++ (after ++ rest)))) := by
  obtain ⟨lead, before, key, gap, before', text, after, hlead, hbefore, hkey, hgap, hbefore',
    htext, hafter, rfl⟩ := h
  refine ⟨gap, before', text, after, hgap, hbefore', htext, hafter, ?_⟩
  simp only [List.append_assoc, List.cons_append]
  rw [members]
  exact bind_of_success (success_nextKey_cons hlead hbefore hkey _)

/-- A loop over members takes in each of them, as long as there are enough rounds. -/
theorem see_members {M : Type → Type} [Monad M] [LawfulMonad M] (view : View M)
    {member : σ → String → Scan σ} {f : σ → String × Json → M σ} {ms : List (String × Json)}
    (hmember : ∀ s, ∀ m ∈ ms, ∀ gap before text rest, AllBlank gap → AllBlank before →
      IsText m.2 text → Ends rest →
      view.see (member s m.1 (gap ++ ':' :: (before ++ (text ++ rest)))) =
        (fun t => (t, rest)) <$> f s m)
    {rounds : Nat} {isFirst : Bool} {cs : List Char} (h : MembersText isFirst ms cs)
    (hrounds : ms.length < rounds) (s : σ) (rest : List Char) :
    view.see (members member rounds isFirst s (cs ++ rest)) =
      (fun t => (t, '}' :: rest)) <$> ms.foldlM f s := by
  induction ms generalizing rounds isFirst cs s with
  | nil =>
    cases rounds with
    | zero => simp at hrounds
    | succ rounds =>
      rw [members_nil h rounds s rest, view.see_ok, List.foldlM_nil, map_pure]
  | cons m ms ih =>
    cases rounds with
    | zero => simp at hrounds
    | succ rounds =>
      obtain ⟨gap, before, text, after, hgap, hbefore, htext, hafter, heq⟩ :=
        members_cons h rounds s rest
      have hfirst := hmember s m (List.mem_cons_self ..) gap before text (after ++ rest) hgap
        hbefore htext (hafter.ends rest)
      have hmore : ms.length < rounds := by simpa using hrounds
      have hothers := ih (fun t n hn => hmember t n (List.mem_cons_of_mem m hn)) hafter hmore
      rw [heq, view.see_bind, hfirst, List.foldlM_cons, map_bind, bind_map_left]
      exact bind_congr hothers

theorem see_membersToEnd {M : Type → Type} [Monad M] [LawfulMonad M] (view : View M)
    {member : σ → String → Scan σ} {f : σ → String × Json → M σ} {ms : List (String × Json)}
    (hmember : ∀ s, ∀ m ∈ ms, ∀ gap before text rest, AllBlank gap → AllBlank before →
      IsText m.2 text → Ends rest →
      view.see (member s m.1 (gap ++ ':' :: (before ++ (text ++ rest)))) =
        (fun t => (t, rest)) <$> f s m)
    {cs : List Char} (h : MembersText true ms cs) (s : σ) (rest : List Char) :
    view.see (membersToEnd member s (cs ++ rest)) =
      (fun t => (t, '}' :: rest)) <$> ms.foldlM f s := by
  have hlength := h.length_lt
  apply see_members view hmember h
  simp only [List.length_append]
  omega

/-- Members that are taken in one by one are all taken in, in their order. -/
theorem success_membersToEnd {member : σ → String → Scan σ} {f : σ → String × Json → Option σ}
    {ms : List (String × Json)}
    (hmember : ∀ s, ∀ m ∈ ms, ∀ gap before text rest, AllBlank gap → AllBlank before →
      IsText m.2 text → Ends rest →
      (member s m.1).success (gap ++ ':' :: (before ++ (text ++ rest))) =
        (f s m).map fun t => (t, rest))
    {cs : List Char} (h : MembersText true ms cs) (s : σ) (rest : List Char) :
    (membersToEnd member s).success (cs ++ rest) =
      (ms.foldlM f s).map fun t => (t, '}' :: rest) :=
  see_membersToEnd successes hmember h s rest

theorem verdict_membersToEnd {member : σ → String → Scan σ}
    {f : σ → String × Json → Except Cause σ} {ms : List (String × Json)}
    (hmember : ∀ s, ∀ m ∈ ms, ∀ gap before text rest, AllBlank gap → AllBlank before →
      IsText m.2 text → Ends rest →
      (member s m.1).verdict (gap ++ ':' :: (before ++ (text ++ rest))) =
        (f s m).map fun t => (t, rest))
    {cs : List Char} (h : MembersText true ms cs) (s : σ) (rest : List Char) :
    (membersToEnd member s).verdict (cs ++ rest) =
      (ms.foldlM f s).map fun t => (t, '}' :: rest) :=
  see_membersToEnd verdicts hmember h s rest

end

/-- A loop that passes over members passes over the end of the object too. -/
theorem success_skipMembers (value : Scan Unit) {ms : List (String × Json)} {isFirst : Bool}
    {cs : List Char}
    (hvalue : ∀ m ∈ ms, ∀ blanks text rest, AllBlank blanks → IsText m.2 text → Ends rest →
      text.length ≤ cs.length → value.success (blanks ++ (text ++ rest)) = some ((), rest))
    (rounds : Nat) (h : MembersText isFirst ms cs) (hrounds : ms.length < rounds)
    (rest : List Char) :
    (skipMembers value rounds isFirst).success (cs ++ rest) = some ((), rest) := by
  induction ms generalizing rounds isFirst cs with
  | nil =>
    cases rounds with
    | zero => simp at hrounds
    | succ rounds =>
      obtain ⟨blanks, hblanks, rfl⟩ := h
      have hend : isBlank '}' = false := by decide
      simp only [List.append_assoc, List.cons_append, List.nil_append, success, skipMembers,
        skipBlanks_append_cons hblanks hend, if_true]
  | cons m ms ih =>
    cases rounds with
    | zero => simp at hrounds
    | succ rounds =>
      obtain ⟨lead, before, key, gap, before', inside, after, hlead, hbefore, hkey, hgap, hbefore',
        hinside, hafter, rfl⟩ := h
      have hfirst : value.success (before' ++ (inside ++ (after ++ rest))) =
          some ((), after ++ rest) := by
        apply hvalue m (List.mem_cons_self ..) before' inside (after ++ rest) hbefore' hinside
          (hafter.ends rest)
        simp only [List.length_append, List.length_cons]
        omega
      have hothers : (skipMembers value rounds false).success (after ++ rest) =
          some ((), rest) := by
        apply ih _ rounds hafter (by simpa using hrounds)
        intro n hn blanks text rest hblanks htext hrest hlength
        apply hvalue n (List.mem_cons_of_mem m hn) blanks text rest hblanks htext hrest
        simp only [List.length_append, List.length_cons]
        omega
      have hstep : ∀ blanks, AllBlank blanks →
          success (do skipKey; value; skipMembers value rounds false)
            (blanks ++ '"' ::
              (key ++ '"' :: (gap ++ ':' :: (before' ++ (inside ++ (after ++ rest)))))) =
            some ((), rest) := by
        intro blanks hblanks
        rw [success_bind, success_skipKey hblanks hkey hgap, Option.bind_some, success_bind,
          hfirst, Option.bind_some, hothers]
      simp only [List.append_assoc, List.cons_append]
      cases isFirst with
      | true =>
        obtain rfl : lead = [] := hlead
        have hquote : isBlank '"' = false := by decide
        rw [← hstep [] allBlank_nil]
        simp only [List.nil_append, success, skipMembers, skipBlanks_append_cons hbefore hquote]
        rfl
      | false =>
        obtain ⟨blanks, hblanks, rfl⟩ := hlead
        have hcomma : isBlank ',' = false := by decide
        rw [← hstep before hbefore]
        simp only [List.append_assoc, List.cons_append, List.nil_append, success, skipMembers,
          skipBlanks_append_cons hblanks hcomma]
        rfl

end SceneScript.Json
