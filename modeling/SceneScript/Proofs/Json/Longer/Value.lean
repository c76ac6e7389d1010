import SceneScript.Proofs.Json.Longer.Number

/-!
Values in longer texts. Lists and objects end at their brackets, so their loops are stable although
a value inside may be a number; more rounds than needed make no difference.
-/
namespace SceneScript.Json

open Scan

variable {α σ : Type} {left : List Char → Prop}

private def itemBehindComma : Scan Bool := fun rest =>
  match skipBlanks rest with
  | [] => failAtNext .endInValue []
  | c :: tail => if c = ']' then failAtNext .trailingComma (c :: tail) else .ok true (c :: tail)

private theorem stable_itemBehindComma : Stable itemBehindComma := by
  have htoken : itemBehindComma.ByToken fun c tail =>
      if c = ']' then failAtNext .trailingComma (c :: tail) else .ok true (c :: tail) := by
    intro cs
    unfold success itemBehindComma
    cases skipBlanks cs <;> rfl
  apply htoken.extends htoken
  intro c
  apply Extends.ite
  · intro _
    exact extends_of_fails fun _ => rfl
  · intro _
    exact stable_return true c

/-- Whether there is a further item shows at the first character of what comes. -/
theorem stable_nextItem (isFirst : Bool) : Stable (nextItem isFirst) := by
  have htoken : (nextItem isFirst).ByToken fun c tail =>
      if c = ']' then .ok false (c :: tail)
      else if isFirst then .ok true (c :: tail)
      else if c = ',' then itemBehindComma tail
      else failAtNext .expectedListEnd (c :: tail) := by
    intro cs
    unfold success nextItem
    cases skipBlanks cs <;> rfl
  apply htoken.extends htoken
  intro c
  apply Extends.ite
  · intro _
    exact stable_return false c
  intro _
  apply Extends.ite
  · intro _
    exact stable_return true c
  intro _
  apply Extends.ite
  · intro _
    exact stable_itemBehindComma
  · intro _
    exact extends_of_fails fun _ => rfl

private def keyBehindComma : Scan (Option String) := fun rest =>
  match skipBlanks rest with
  | [] => failAtNext .endInValue []
  | c :: tail =>
    if c = '"' then (some <$> readString) tail
    else if c = '}' then failAtNext .trailingComma (c :: tail)
    else failAtNext .keyNotString (c :: tail)

private theorem stable_keyBehindComma : Stable keyBehindComma := by
  have htoken : keyBehindComma.ByToken fun c tail =>
      if c = '"' then (some <$> readString) tail
      else if c = '}' then failAtNext .trailingComma (c :: tail)
      else failAtNext .keyNotString (c :: tail) := by
    intro cs
    unfold success keyBehindComma
    cases skipBlanks cs <;> rfl
  apply htoken.extends htoken
  intro c
  apply Extends.ite
  · intro _
    exact stable_readString.map some
  · intro _
    apply extends_of_fails
    intro cs
    by_cases hc : c = '}' <;> simp [success, hc, failAtNext]

/-- A key is a string, and so ends by itself. -/
theorem stable_nextKey (isFirst : Bool) : Stable (nextKey isFirst) := by
  have htoken : (nextKey isFirst).ByToken fun c tail =>
      if c = '}' then .ok none (c :: tail)
      else if isFirst then
        if c = '"' then (some <$> readString) tail else failAtNext .keyNotString (c :: tail)
      else if c = ',' then keyBehindComma tail
      else failAtNext .expectedObjectEnd (c :: tail) := by
    intro cs
    unfold success nextKey
    cases skipBlanks cs <;> rfl
  apply htoken.extends htoken
  intro c
  apply Extends.ite
  · intro _
    exact stable_return none c
  intro _
  apply Extends.ite
  · intro _
    apply Extends.ite
    · intro _
      exact stable_readString.map some
    · intro _
      exact extends_of_fails fun _ => rfl
  intro _
  apply Extends.ite
  · intro _
    exact stable_keyBehindComma
  · intro _
    exact extends_of_fails fun _ => rfl

/-! The loops -/

/-- The end of a list is never found in an empty text. -/
theorem success_items_nil (item : Scan α) (rounds : Nat) (isFirst : Bool) :
    (items item rounds isFirst).success [] = none := by
  cases rounds with
  | zero => rfl
  | succ rounds => rfl

theorem success_members_nil (member : σ → String → Scan σ) (rounds : Nat) (isFirst : Bool) (s : σ) :
    (members member rounds isFirst s).success [] = none := by
  cases rounds with
  | zero => rfl
  | succ rounds => rfl

/-- With as many rounds or more. -/
theorem extends_items {item : Scan α} (hitem : Delimited item) {rounds more : Nat}
    (h : rounds ≤ more) (isFirst : Bool) :
    Extends AnyLeft (items item rounds isFirst) (items item more isFirst) := by
  induction rounds generalizing more isFirst with
  | zero => exact extends_of_fails fun _ => rfl
  | succ rounds ih =>
    obtain ⟨more, rfl⟩ : ∃ n, more = n + 1 := ⟨more - 1, by omega⟩
    have hothers := ih (by omega : rounds ≤ more) false
    rw [items, items]
    apply (stable_nextItem isFirst).bind_of_any
    intro hasItem
    cases hasItem with
    | false => exact stable_pure []
    | true =>
      apply hitem.bind_of_some
      · intro a
        exact hothers.bind_of_any fun as => stable_pure (a :: as)
      · intro a as rest hok
        rw [success_bind, success_items_nil] at hok
        cases hok

/-- Every item is followed by something, since the list is read to its end. -/
theorem stable_itemsToEnd {item : Scan α} (hitem : Delimited item) (isFirst : Bool) :
    Stable (itemsToEnd item isFirst) := by
  intro cs as rest hok hrest more
  have hrounds : cs.length + 1 ≤ (cs ++ more).length + 1 := by simp
  exact extends_items hitem hrounds isFirst cs as rest hok hrest more

/-- More rounds than are needed change nothing. -/
theorem extends_members {member : σ → String → Scan σ}
    (hmember : ∀ s key, Delimited (member s key)) {rounds more : Nat} (h : rounds ≤ more)
    (isFirst : Bool) (s : σ) :
    Extends AnyLeft (members member rounds isFirst s) (members member more isFirst s) := by
  induction rounds generalizing more isFirst s with
  | zero => exact extends_of_fails fun _ => rfl
  | succ rounds ih =>
    obtain ⟨more, rfl⟩ : ∃ n, more = n + 1 := ⟨more - 1, by omega⟩
    rw [members, members]
    apply (stable_nextKey isFirst).bind_of_any
    intro key
    cases key with
    | none => exact stable_pure s
    | some key =>
      apply (hmember s key).bind_of_some
      · intro t
        exact ih (by omega : rounds ≤ more) false t
      · intro t u rest hok
        rw [success_members_nil] at hok
        cases hok

/-- Every member is followed by something, since the object is read to its end. -/
theorem stable_membersToEnd {member : σ → String → Scan σ}
    (hmember : ∀ s key, Delimited (member s key)) (s : σ) : Stable (membersToEnd member s) := by
  intro cs t rest hok hrest more
  have hrounds : cs.length + 1 ≤ (cs ++ more).length + 1 := by simp
  exact extends_members hmember hrounds true s cs t rest hok hrest more

/-! Values -/

/-- Only numbers among the values without parts have to see what follows. -/
private theorem delimited_scalar : Delimited scalar := by
  intro cs v rest hok hrest more
  cases cs with
  | nil => simp [success, scalar, failAtNext] at hok
  | cons c tail =>
    have hword (cs : List Char) (u : Json) : Delimited (do word cs; pure u : Scan Json) :=
      ((stable_word cs).bind_of_any fun _ => stable_pure u).of_any
    simp only [success, scalar, List.cons_append] at hok ⊢
    split_ifs at hok ⊢
    · exact hword _ _ tail v rest hok hrest more
    · exact hword _ _ tail v rest hok hrest more
    · exact hword _ _ tail v rest hok hrest more
    · exact (delimited_readNumber true).map Json.number tail v rest hok hrest more
    · exact (delimited_readNumber false).map Json.number (c :: tail) v rest hok hrest more
    · exact (stable_readString.of_any.map Json.string) tail v rest hok hrest more
    · simp [failAtNext] at hok

/-- Each kind of value has a reader of its own. -/
theorem extends_valueOf {list object other widerList widerObject widerOther : Scan α}
    (hlist : Extends left (list.after '[') (widerList.after '['))
    (hobject : Extends left (object.after '{') (widerObject.after '{'))
    (hother : Extends left other widerOther) :
    Extends left (valueOf list object other) (valueOf widerList widerObject widerOther) := by
  have htoken (list object other : Scan α) : (valueOf list object other).ByToken fun c tail =>
      if c = '[' then list.after '[' tail
      else if c = '{' then object.after '{' tail
      else other.after c tail := by
    intro cs
    refine (success_placed _ cs).trans ?_
    simp only [success]
    cases skipBlanks cs with
    | nil => rfl
    | cons c tail =>
      by_cases hopen : c = '['
      · subst hopen
        rfl
      by_cases hbrace : c = '{'
      · subst hbrace
        rfl
      · simp only [hopen, hbrace, if_false]
        rfl
  apply (htoken list object other).extends (htoken widerList widerObject widerOther)
  intro c
  apply Extends.ite
  · intro _
    exact hlist
  intro _
  apply Extends.ite
  · intro _
    exact hobject
  · intro _
    exact hother.after c

theorem stable_bracketed {inside : Scan α} (h : Stable inside) {close : Scan Unit}
    (hclose : Stable close) (c : Char) : Stable ((bracketed inside close).after c) :=
  Stable.closedBy h hclose

/-- Behind a bracket a value is stable, on whatever level it stands. -/
theorem stable_nested {inside : Nat → Scan α} (h : ∀ depth, Stable (inside depth))
    {close : Scan Unit} (hclose : Stable close) (depth : Nat) (c : Char) :
    Stable ((nested inside close depth).after c) := by
  cases depth with
  | zero => exact extends_of_fails fun _ => rfl
  | succ depth => exact stable_bracketed (h depth) hclose c

/-- A value keeps its meaning in a longer text unless it is a number at the very end. -/
theorem delimited_read (depth : Nat) : Delimited (read depth) := by
  induction depth with
  | zero =>
    rw [read]
    apply extends_valueOf _ _ delimited_scalar
    · exact extends_of_fails fun _ => rfl
    · exact extends_of_fails fun _ => rfl
  | succ depth ih =>
    have hmember (ms : List (String × Json)) (key : String) :
        Delimited (do colon; let v ← read depth; pure (ms ++ [(key, v)])) := by
      apply stable_colon.bind_of_any
      intro _
      apply ih.bind_of_some
      · intro v
        exact (stable_pure _).of_any
      · intro v ns rest hok
        obtain ⟨_, rfl⟩ : ms ++ [(key, v)] = ns ∧ [] = rest := by simpa using hok
        exact absurd rfl
    rw [read]
    apply extends_valueOf _ _ delimited_scalar
    · have hitems := (stable_itemsToEnd ih true).map Json.array
      exact (stable_bracketed hitems stable_endList '[').of_any
    · have hmembers := (stable_membersToEnd hmember []).map Json.object
      exact (stable_bracketed hmembers stable_endObject '{').of_any

/-! Passing over a value -/

/-- A list that is passed over has its end in the text. -/
theorem success_skipItems_nil (item : Scan Unit) (rounds : Nat) (isFirst : Bool) :
    (skipItems item rounds isFirst).success [] = none := by
  cases rounds with
  | zero => rfl
  | succ rounds => rfl

theorem success_skipMembers_nil (value : Scan Unit) (rounds : Nat) (isFirst : Bool) :
    (skipMembers value rounds isFirst).success [] = none := by
  cases rounds with
  | zero => rfl
  | succ rounds => rfl

/-- A loop over items of which a longer text may need more rounds as well. -/
theorem extends_skipItems {item wider : Scan Unit} (hitem : Extends SomeLeft item wider)
    {rounds more : Nat} (h : rounds ≤ more) (isFirst : Bool) :
    Extends AnyLeft (skipItems item rounds isFirst) (skipItems wider more isFirst) := by
  have htoken (item : Scan Unit) (rounds : Nat) (isFirst : Bool) :
      (skipItems item (rounds + 1) isFirst).ByToken fun c tail =>
        if c = ']' then .ok () tail
        else if isFirst then (do item; skipItems item rounds false : Scan Unit).after c tail
        else if c = ',' then (do item; skipItems item rounds false : Scan Unit) tail
        else failAtNext .expectedListEnd (c :: tail) := by
    intro cs
    simp only [success, skipItems]
    cases skipBlanks cs <;> rfl
  induction rounds generalizing more isFirst with
  | zero => exact extends_of_fails fun _ => rfl
  | succ rounds ih =>
    obtain ⟨more, rfl⟩ : ∃ n, more = n + 1 := ⟨more - 1, by omega⟩
    have hothers : Extends AnyLeft (do item; skipItems item rounds false)
        (do wider; skipItems wider more false) := by
      apply hitem.bind_of_some
      · intro _
        exact ih (by omega) false
      · intro _ u rest hok
        rw [success_skipItems_nil] at hok
        cases hok
    apply (htoken item rounds isFirst).extends (htoken wider more isFirst)
    intro c
    apply Extends.ite
    · intro _
      exact stable_pure ()
    intro _
    apply Extends.ite
    · intro _
      exact hothers.after c
    intro _
    apply Extends.ite
    · intro _
      exact hothers
    · intro _
      exact extends_of_fails fun _ => rfl

theorem stable_skipKey : Stable skipKey := by
  have htoken : skipKey.ByToken fun c tail =>
      if c = '"' then (do skipString; colon : Scan Unit) tail
      else failAtNext .keyNotString (c :: tail) := by
    intro cs
    unfold success skipKey
    cases skipBlanks cs <;> rfl
  apply htoken.extends htoken
  intro c
  apply Extends.ite
  · intro _
    exact (stable_skipWithin .plain).bind_of_any fun _ => stable_colon
  · intro _
    exact extends_of_fails fun _ => rfl

/-- More rounds change nothing, and neither does a wider reader of values. -/
theorem extends_skipMembers {value wider : Scan Unit} (hvalue : Extends SomeLeft value wider)
    {rounds more : Nat} (h : rounds ≤ more) (isFirst : Bool) :
    Extends AnyLeft (skipMembers value rounds isFirst) (skipMembers wider more isFirst) := by
  have htoken (value : Scan Unit) (rounds : Nat) (isFirst : Bool) :
      (skipMembers value (rounds + 1) isFirst).ByToken fun c tail =>
        if c = '}' then .ok () tail
        else if isFirst then
          (do skipKey; value; skipMembers value rounds false : Scan Unit).after c tail
        else if c = ',' then (do skipKey; value; skipMembers value rounds false : Scan Unit) tail
        else failAtNext .expectedObjectEnd (c :: tail) := by
    intro cs
    simp only [success, skipMembers]
    cases skipBlanks cs <;> rfl
  induction rounds generalizing more isFirst with
  | zero => exact extends_of_fails fun _ => rfl
  | succ rounds ih =>
    obtain ⟨more, rfl⟩ : ∃ n, more = n + 1 := ⟨more - 1, by omega⟩
    have hothers : Extends AnyLeft (do skipKey; value; skipMembers value rounds false)
        (do skipKey; wider; skipMembers wider more false) := by
      apply stable_skipKey.bind_of_any
      intro _
      apply hvalue.bind_of_some
      · intro _
        exact ih (by omega) false
      · intro _ u rest hok
        rw [success_skipMembers_nil] at hok
        cases hok
    apply (htoken value rounds isFirst).extends (htoken wider more isFirst)
    intro c
    apply Extends.ite
    · intro _
      exact stable_pure ()
    intro _
    apply Extends.ite
    · intro _
      exact hothers.after c
    intro _
    apply Extends.ite
    · intro _
      exact hothers
    · intro _
      exact extends_of_fails fun _ => rfl

/-- Rounds bound the depth as well, so more of them pass over all that fewer do. -/
theorem extends_skipValue {rounds more : Nat} (h : rounds ≤ more) :
    Extends SomeLeft (skipValue rounds) (skipValue more) := by
  have htoken (rounds : Nat) : (skipValue (rounds + 1)).ByToken fun c tail =>
      if c = '[' then skipItems (skipValue rounds) rounds true tail
      else if c = '{' then skipMembers (skipValue rounds) rounds true tail
      else if c = '"' then skipString tail
      else if c = 'n' then word ['u', 'l', 'l'] tail
      else if c = 't' then word ['r', 'u', 'e'] tail
      else if c = 'f' then word ['a', 'l', 's', 'e'] tail
      else if c = '-' then skipNumber tail
      else if c.isDigit then skipNumber.after c tail
      else failAtNext .expectedValue (c :: tail) := by
    intro cs
    simp only [success, skipValue]
    cases skipBlanks cs <;> rfl
  induction rounds generalizing more with
  | zero => exact extends_of_fails fun _ => rfl
  | succ rounds ih =>
    obtain ⟨more, rfl⟩ : ∃ n, more = n + 1 := ⟨more - 1, by omega⟩
    have hle : rounds ≤ more := by omega
    apply (htoken rounds).extends (htoken more)
    intro c
    refine Extends.ite (fun _ => ?_) fun _ => Extends.ite (fun _ => ?_) fun _ =>
      Extends.ite (fun _ => ?_) fun _ => Extends.ite (fun _ => ?_) fun _ =>
      Extends.ite (fun _ => ?_) fun _ => Extends.ite (fun _ => ?_) fun _ =>
      Extends.ite (fun _ => ?_) fun _ => Extends.ite (fun _ => ?_) fun _ => ?_
    · exact (extends_skipItems (ih hle) hle true).of_any
    · exact (extends_skipMembers (ih hle) hle true).of_any
    · exact (stable_skipWithin .plain).of_any
    · exact (stable_word _).of_any
    · exact (stable_word _).of_any
    · exact (stable_word _).of_any
    · exact delimited_skipNumber
    · exact delimited_skipNumber.after c
    · exact extends_of_fails fun _ => rfl

/-- A longer text allows more rounds, and the same value is passed over. -/
theorem delimited_skip : Delimited skip := by
  intro cs u rest hok hrest more
  have hrounds : cs.length + 1 ≤ (cs ++ more).length + 1 := by simp
  exact extends_skipValue hrounds cs u rest hok hrest more

end SceneScript.Json
