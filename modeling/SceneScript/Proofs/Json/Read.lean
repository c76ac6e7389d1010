import SceneScript.Proofs.Json.Sequence

/-!
Arbitrary values against the grammar. The reader returns the value that a text spells, as long as
no more brackets are open inside each other than it may open; passing over a value ends where its
text ends, however deep the value is.
-/
namespace SceneScript.Json

open Scan

theorem mapM_some {α : Type} (as : List α) : as.mapM some = some as := by
  have hpure : as.mapM (fun a => pure (id a)) = (pure (as.map id) : Option (List α)) :=
    List.mapM_pure
  rwa [List.map_id] at hpure

theorem foldlM_snoc {α : Type} (acc as : List α) :
    as.foldlM (fun bs a => some (bs ++ [a])) acc = some (acc ++ as) := by
  induction as generalizing acc with
  | nil => simp
  | cons a as ih =>
    rw [List.foldlM_cons]
    simp [ih]

/-- A member is read behind its key. -/
theorem success_readMember {depth : Nat} (m : String × Json) (ms : List (String × Json))
    {gap cs rest : List Char} (hgap : AllBlank gap)
    (hvalue : (read depth).success cs = some (m.2, rest)) :
    success (do colon; let v ← read depth; pure (ms ++ [(m.1, v)])) (gap ++ ':' :: cs) =
      some (ms ++ [m], rest) := by
  rw [success_bind, success_colon hgap, Option.bind_some, success_bind, hvalue]
  rfl

/-- Reading gives back the value that was spelled. -/
theorem success_read {depth : Nat} {v : Json} {blanks text rest : List Char} (h : IsText v text)
    (hdepth : v.depth ≤ depth) (hblanks : AllBlank blanks) (hrest : Ends rest) :
    (read depth).success (blanks ++ (text ++ rest)) = some (v, rest) := by
  induction depth generalizing v blanks text rest with
  | zero =>
    have hv : IsScalar v := by
      cases v with
      | array vs => simp [Json.depth] at hdepth
      | object ms => simp [Json.depth] at hdepth
      | _ => trivial
    rw [read, success_valueOf_scalar h hv hblanks, success_scalar h hv hrest]
  | succ depth ih =>
    rw [read]
    by_cases hv : IsScalar v
    · rw [success_valueOf_scalar h hv hblanks, success_scalar h hv hrest]
    cases v with
    | array vs =>
      rw [success_valueOf_array h hblanks]
      obtain ⟨inside, hinside, rfl⟩ := itemsText_of_array h
      have hitem : ∀ v ∈ vs, ∀ text rest, IsText v text → Ends rest →
          (read depth).success (text ++ rest) = (some v).map fun a => (a, rest) := by
        intro w hw text rest htext hrest
        exact ih htext (depth_le_of_mem_array hw hdepth) allBlank_nil hrest
      rw [List.cons_append, success_bracketed, success_closedBy, success_map,
        success_itemsToEnd hitem hinside]
      simp [mapM_some]
    | object ms =>
      rw [success_valueOf_object h hblanks]
      obtain ⟨inside, hinside, rfl⟩ := membersText_of_object h
      rw [List.cons_append, success_bracketed, success_closedBy, success_map,
        success_membersToEnd (f := fun ms m => some (ms ++ [m])) ?_ hinside]
      · simp [foldlM_snoc]
      · intro s m hm gap before text rest hgap hbefore htext hrest
        have hvalue := ih htext (depth_le_of_mem_object hm hdepth) hbefore hrest
        exact success_readMember m s hgap hvalue
    | _ => exact absurd trivial hv

/-- A text spells one value at most. -/
theorem eq_of_isText {v w : Json} {text : List Char} (hv : Padded (IsText v) text)
    (hw : Padded (IsText w) text) : v = w := by
  have hread {u : Json} (hu : Padded (IsText u) text) (hdepth : u.depth ≤ v.depth + w.depth) :
      ((read (v.depth + w.depth)).success text).map Prod.fst = some u := by
    obtain ⟨before, inside, after, hbefore, hinside, hafter, rfl⟩ := hu
    have hends : Ends after := fun c hc => Or.inl (hafter c (List.mem_of_mem_head? hc))
    rw [List.append_assoc, success_read hinside hdepth hbefore hends, Option.map_some]
  have hboth := (hread hv (Nat.le_add_right ..)).symm.trans (hread hw (Nat.le_add_left ..))
  exact Option.some.inj hboth

private theorem success_skipValue_scalar {v : Json} {blanks text rest : List Char} {bound : Nat}
    (h : IsText v text) (hv : IsScalar v) (hblanks : AllBlank blanks) (hrest : Ends rest) :
    (skipValue (bound + 1)).success (blanks ++ (text ++ rest)) = some ((), rest) := by
  cases v with
  | null =>
    obtain rfl : text = 'n' :: ['u', 'l', 'l'] := h
    have hn : isBlank 'n' = false := by decide
    rw [← success_word ['u', 'l', 'l'] rest]
    simp only [List.cons_append, success, skipValue, skipBlanks_append_cons hblanks hn]
    rfl
  | bool b =>
    cases b
    · obtain rfl : text = 'f' :: ['a', 'l', 's', 'e'] := h
      have hf : isBlank 'f' = false := by decide
      rw [← success_word ['a', 'l', 's', 'e'] rest]
      simp only [List.cons_append, success, skipValue, skipBlanks_append_cons hblanks hf]
      rfl
    · obtain rfl : text = 't' :: ['r', 'u', 'e'] := h
      have ht : isBlank 't' = false := by decide
      rw [← success_word ['r', 'u', 'e'] rest]
      simp only [List.cons_append, success, skipValue, skipBlanks_append_cons hblanks ht]
      rfl
  | string s =>
    obtain ⟨inside, hinside, rfl⟩ := h
    have hquote : isBlank '"' = false := by decide
    rw [← success_skipString hinside rest]
    simp only [List.append_assoc, List.cons_append, List.nil_append, success, skipValue,
      skipBlanks_append_cons hblanks hquote]
    rfl
  | number k =>
    obtain ⟨n, _, rfl⟩ := h
    have hskip := n.success_skipNumber hrest
    unfold NumberLiteral.chars
    split
    · have hminus : isBlank '-' = false := by decide
      rw [← hskip]
      simp only [List.cons_append, success, skipValue, skipBlanks_append_cons hblanks hminus]
      rfl
    · obtain ⟨d, tail, heq, hd⟩ := n.unsigned_eq_cons
      rw [heq, List.cons_append] at hskip ⊢
      rw [← hskip]
      have hother : ∀ c ∈ ['[', '{', '"', 'n', 't', 'f', '-'], c.isDigit = false := by simp
      have hne := fun c hc => Text.ne_of_isDigit hd (hother c hc)
      simp only [List.mem_cons, List.not_mem_nil, or_false, forall_eq_or_imp, forall_eq] at hne
      simp only [success, skipValue, skipBlanks_append_cons hblanks (isBlank_of_isDigit hd), hne,
        hd, if_true, if_false]
  | array vs => exact absurd hv id
  | object ms => exact absurd hv id

/-- A value is passed over by as many rounds as its text is long. -/
theorem success_skipValue {bound : Nat} {v : Json} {blanks text rest : List Char}
    (h : IsText v text) (hbound : text.length ≤ bound) (hblanks : AllBlank blanks)
    (hrest : Ends rest) :
    (skipValue bound).success (blanks ++ (text ++ rest)) = some ((), rest) := by
  induction bound generalizing v blanks text rest with
  | zero =>
    obtain ⟨c, tail, rfl, _⟩ := IsText.eq_cons h
    simp at hbound
  | succ bound ih =>
    by_cases hv : IsScalar v
    · exact success_skipValue_scalar h hv hblanks hrest
    cases v with
    | array vs =>
      obtain ⟨inside, hinside, rfl⟩ := itemsText_of_array h
      have hlist : isBlank '[' = false := by decide
      have hle : inside.length ≤ bound := by simpa using hbound
      have hskip := success_skipItems (skipValue bound)
        (fun w _ blanks text rest hblanks htext hrest hlength =>
          ih htext (le_trans hlength hle) hblanks hrest) bound hinside
        (lt_of_lt_of_le hinside.length_lt hle) rest
      rw [← hskip]
      simp only [List.cons_append, success, skipValue, skipBlanks_append_cons hblanks hlist,
        if_true]
    | object ms =>
      obtain ⟨inside, hinside, rfl⟩ := membersText_of_object h
      have hobject : isBlank '{' = false := by decide
      have hle : inside.length ≤ bound := by simpa using hbound
      have hskip := success_skipMembers (skipValue bound)
        (fun m _ blanks text rest hblanks htext hrest hlength =>
          ih htext (le_trans hlength hle) hblanks hrest) bound hinside
        (lt_of_lt_of_le hinside.length_lt hle) rest
      rw [← hskip]
      simp only [List.cons_append, success, skipValue, skipBlanks_append_cons hblanks hobject]
      rfl
    | _ => exact absurd trivial hv

/-- A value is passed over as a whole, whatever it is and however deep. -/
theorem success_skip {v : Json} {blanks text rest : List Char} (h : IsText v text)
    (hblanks : AllBlank blanks) (hrest : Ends rest) :
    skip.success (blanks ++ (text ++ rest)) = some ((), rest) :=
  success_skipValue h (by simp only [List.length_append]; omega) hblanks hrest

end SceneScript.Json
