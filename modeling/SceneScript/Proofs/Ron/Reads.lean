import SceneScript.Proofs.Ron.Grammar

/-!
Scans of object notation from any place in a text. What a scan gives and what it leaves over do not
depend on the place that is counted along; scans are put together in these terms, and layout is
passed over whole.
-/
namespace SceneScript.Ron

variable {α β : Type}

/-- From wherever the text stands, the scan gives a result and leaves the rest. -/
def Reads (scan : Scan α) (text : List Char) (a : α) (rest : List Char) : Prop :=
  ∀ p, ∃ q, scan ⟨text, p⟩ = .ok a ⟨rest, q⟩

def Refuses (scan : Scan α) (text : List Char) (fault : Fault) : Prop :=
  ∀ p, ∃ cursor, scan ⟨text, p⟩ = .error fault cursor

/-- From wherever the text stands, the scan ends with the result, and leaves the rest unless the
result is a fault. -/
def Gives (scan : Scan α) (text : List Char) (result : Except Fault α) (rest : List Char) : Prop :=
  match result with
  | .ok a => Reads scan text a rest
  | .error fault => Refuses scan text fault

section

variable {scan : Scan α} {next : α → Scan β} {text mid rest : List Char} {a : α} {b : β}
  {fault : Fault} {result : Except Fault α} {last : Except Fault β}

theorem bind_of_eq_ok {cursor behind : Cursor} (h : scan cursor = .ok a behind) :
    (scan >>= next) cursor = next a behind := by
  change EStateM.bind scan next cursor = next a behind
  simp only [EStateM.bind, h]

theorem bind_of_eq_error {cursor behind : Cursor} (h : scan cursor = .error fault behind) :
    (scan >>= next) cursor = .error fault behind := by
  change EStateM.bind scan next cursor = .error fault behind
  simp only [EStateM.bind, h]

/-- What the first scan leaves is what the second reads. -/
theorem Reads.bind (h : Reads scan text a mid) (hnext : Reads (next a) mid b rest) :
    Reads (scan >>= next) text b rest := by
  intro p
  obtain ⟨q, hq⟩ := h p
  rw [bind_of_eq_ok hq]
  exact hnext q

/-- A fault behind what was read is the fault of the whole. -/
theorem Reads.bind_refuses (h : Reads scan text a mid) (hnext : Refuses (next a) mid fault) :
    Refuses (scan >>= next) text fault := by
  intro p
  obtain ⟨q, hq⟩ := h p
  rw [bind_of_eq_ok hq]
  exact hnext q

/-- Nothing is read behind a fault. -/
theorem Refuses.bind (h : Refuses scan text fault) : Refuses (scan >>= next) text fault := by
  intro p
  obtain ⟨cursor, hcursor⟩ := h p
  exact ⟨cursor, bind_of_eq_error hcursor⟩

theorem Reads.bind_gives (h : Reads scan text a mid) (hnext : Gives (next a) mid last rest) :
    Gives (scan >>= next) text last rest := by
  cases last with
  | ok b => exact h.bind hnext
  | error fault => exact h.bind_refuses hnext

/-- A result that may be a fault is handed on, or ends the scan. -/
theorem Gives.bind {f : α → Except Fault β} (h : Gives scan text result mid)
    (hnext : ∀ a, Gives (next a) mid (f a) rest) :
    Gives (scan >>= next) text (result >>= f) rest := by
  cases result with
  | ok a => exact Reads.bind_gives h (hnext a)
  | error fault => exact Refuses.bind h

end

theorem reads_pure (a : α) (text : List Char) : Reads (pure a) text a text :=
  fun p => ⟨p, rfl⟩

theorem refuses_throw (fault : Fault) (text : List Char) :
    Refuses (throw fault : Scan α) text fault :=
  fun p => ⟨⟨text, p⟩, rfl⟩

theorem reads_peek (text : List Char) : Reads peek text text.head? text :=
  fun p => ⟨p, rfl⟩

theorem reads_peekOrEnd (c : Char) (cs : List Char) : Reads peekOrEnd (c :: cs) c (c :: cs) :=
  fun p => ⟨p, rfl⟩

theorem reads_skip_one (c : Char) (cs : List Char) : Reads (skip 1) (c :: cs) () cs :=
  fun _ => ⟨_, rfl⟩

/-- The place behind the characters that are passed over. -/
theorem advance_append (cs rest : List Char) (p : Text.Position) :
    Cursor.advance ⟨cs ++ rest, p⟩ cs.length = ⟨rest, cs.foldl Cursor.behind p⟩ := by
  simp [Cursor.advance]

/-- A token that stands next is read. -/
theorem reads_consume {token : String} {cs : List Char} (h : token.toList = cs)
    (rest : List Char) : Reads (consume token) (cs ++ rest) true rest := by
  intro p
  refine ⟨(cs.foldl Cursor.behind p), ?_⟩
  subst h
  simp [consume, Cursor.advance]

/-- A token that does not stand next leaves the text as it is. -/
theorem reads_consume_of_not {token : String} {text : List Char}
    (h : token.toList.isPrefixOf text = false) : Reads (consume token) text false text := by
  intro p
  exact ⟨p, by simp [consume, h]⟩

theorem reads_consume_char {token : String} {c : Char} (h : token.toList = [c]) (rest : List Char) :
    Reads (consume token) (c :: rest) true rest :=
  reads_consume h rest

theorem reads_consume_char_of_ne {token : String} {c : Char} (h : token.toList = [c])
    {text : List Char} (hne : text.head? ≠ some c) : Reads (consume token) text false text := by
  apply reads_consume_of_not
  rw [h]
  cases text with
  | nil => rfl
  | cons d text =>
    have hd : c ≠ d := fun hd => hne (congrArg some hd.symm)
    simp [List.isPrefixOf, hd]

theorem takeWhile_append {p : Char → Bool} {cs rest : List Char} (h : ∀ c ∈ cs, p c)
    (hrest : ∀ c ∈ rest.head?, p c = false) : (cs ++ rest).takeWhile p = cs := by
  rw [List.takeWhile_append_of_pos h]
  cases rest with
  | nil => simp
  | cons c rest => simp [hrest c rfl]

/-- The longest run of such characters is read, and no more. -/
theorem reads_takeWhile {p : Char → Bool} {cs rest : List Char} (h : ∀ c ∈ cs, p c)
    (hrest : ∀ c ∈ rest.head?, p c = false) : Reads (takeWhile p) (cs ++ rest) cs rest := by
  intro place
  refine ⟨cs.foldl Cursor.behind place, ?_⟩
  simp [takeWhile, takeWhile_append h hrest, Cursor.advance]

/-! Layout -/

/-- Fuel for the characters of the whole text is enough for its beginning. -/
theorem length_lt_length_append (cs rest : List Char) : cs.length < (cs ++ rest).length + 1 := by
  rw [List.length_append]
  omega

theorem ClosesComments.exists_cons {level : Nat} {cs : List Char}
    (h : ClosesComments (level + 1) cs) : ∃ c tail, cs = c :: tail := by
  cases h <;> exact ⟨_, _, rfl⟩

theorem blockComment_succ (fuel level : Nat) (cursor : Cursor) :
    blockComment (fuel + 1) (level + 1) cursor =
      match cursor.rest with
      | [] => .error .unclosedComment cursor
      | '/' :: '*' :: _ => blockComment fuel (level + 2) (cursor.advance 2)
      | '*' :: '/' :: _ => blockComment fuel level (cursor.advance 2)
      | _ => blockComment fuel (level + 1) (cursor.advance 1) := rfl

/-- A character that begins neither an opening nor a closing is part of the comment. -/
theorem blockComment_other {fuel level : Nat} {c d : Char} {cs : List Char} (p : Text.Position)
    (hopening : ¬ ['/', '*'] <+: c :: d :: cs) (hclosing : ¬ ['*', '/'] <+: c :: d :: cs) :
    blockComment (fuel + 1) (level + 1) ⟨c :: d :: cs, p⟩ =
      blockComment fuel (level + 1) ⟨d :: cs, Cursor.behind p c⟩ := by
  rw [blockComment_succ]
  dsimp only
  split
  · rename_i h
    cases h
  · rename_i h
    exact absurd (h ▸ List.prefix_append ['/', '*'] _) hopening
  · rename_i h
    exact absurd (h ▸ List.prefix_append ['*', '/'] _) hclosing
  · rfl

/-- A nest of comments is read to the end of the outermost. -/
theorem reads_blockComment {level : Nat} {comment : List Char} (h : ClosesComments level comment)
    (rest : List Char) {fuel : Nat} (hfuel : comment.length ≤ fuel) :
    Reads (blockComment fuel level) (comment ++ rest) () rest := by
  induction h generalizing fuel with
  | nil => cases fuel <;> exact reads_pure () rest
  | opening _ ih | closing _ ih =>
    cases fuel with
    | zero => exact absurd hfuel (Nat.not_succ_le_zero _)
    | succ fuel =>
      intro p
      have hrest := Nat.le_of_succ_le_succ hfuel
      exact ih (Nat.le_of_succ_le hrest) _
  | other hopening hclosing hcs ih =>
    cases fuel with
    | zero => exact absurd hfuel (Nat.not_succ_le_zero _)
    | succ fuel =>
      intro p
      obtain ⟨q, hq⟩ := ih (Nat.le_of_succ_le_succ hfuel) (Cursor.behind p _)
      obtain ⟨d, ds, rfl⟩ := hcs.exists_cons
      -- What follows the comment does not take part in telling its last characters.
      refine ⟨q, (blockComment_other p ?_ ?_).trans hq⟩
      · simpa using hopening
      · simpa using hclosing

theorem blanksAndComments_succ (fuel : Nat) :
    blanksAndComments (fuel + 1) = (do
      let _ ← takeWhile isBlank
      if ← comment then blanksAndComments fuel else pure ()) := rfl

/-- Blanks cost no fuel. -/
theorem blanksAndComments_cons {c : Char} (hc : isBlank c) (fuel : Nat) (cs : List Char)
    (p : Text.Position) :
    blanksAndComments (fuel + 1) ⟨c :: cs, p⟩ =
      blanksAndComments (fuel + 1) ⟨cs, Cursor.behind p c⟩ := by
  have htake : takeWhile isBlank ⟨c :: cs, p⟩ = .ok (c :: cs.takeWhile isBlank)
      (Cursor.advance ⟨cs, Cursor.behind p c⟩ (cs.takeWhile isBlank).length) := by
    simp [takeWhile, hc, Cursor.advance]
  have htake' : takeWhile isBlank ⟨cs, Cursor.behind p c⟩ = .ok (cs.takeWhile isBlank)
      (Cursor.advance ⟨cs, Cursor.behind p c⟩ (cs.takeWhile isBlank).length) := rfl
  rw [blanksAndComments_succ, bind_of_eq_ok htake, bind_of_eq_ok htake']

/-- A line comment stops in front of the line feed. -/
theorem reads_comment_line {text : List Char} (htext : '\n' ∉ text) (rest : List Char)
    (hrest : ∀ c ∈ rest.head?, c = '\n') :
    Reads comment ('/' :: '/' :: text ++ rest) true rest := by
  refine (reads_consume_char rfl _).bind ((reads_peekOrEnd _ _).bind ?_)
  have hline : ∀ c ∈ '/' :: text, decide (c ≠ '\n') := by
    intro c hc
    rw [decide_eq_true_iff]
    intro hfeed
    rw [hfeed] at hc
    exact (List.mem_cons.mp hc).elim (by decide) htext
  have hend : ∀ c ∈ rest.head?, decide (c ≠ '\n') = false := fun c hc => by simp [hrest c hc]
  exact (reads_takeWhile hline hend).bind (reads_pure true _)

/-- A block comment is read with its brackets. -/
theorem reads_comment_block {comment' : List Char} (h : ClosesComments 1 comment')
    (rest : List Char) : Reads comment ('/' :: '*' :: comment' ++ rest) true rest := by
  refine (reads_consume_char rfl _).bind ((reads_peekOrEnd _ _).bind ?_)
  refine (reads_skip_one _ _).bind fun p => ?_
  have hfuel := Nat.le_of_lt (length_lt_length_append comment' rest)
  exact ((reads_blockComment h rest hfuel).bind (reads_pure true _)) p

/-- Nothing is passed over where there is no layout. -/
theorem reads_blanksAndComments_bare {rest : List Char} (h : Bare rest) (fuel : Nat) :
    Reads (blanksAndComments (fuel + 1)) rest () rest := by
  have hblank : ∀ c ∈ rest.head?, isBlank c = false := fun c hc => (h c hc).1
  have hslash : rest.head? ≠ some '/' := fun hc => (h '/' hc).2 rfl
  have hcomment : Reads comment rest false rest :=
    (reads_consume_char_of_ne rfl hslash).bind (reads_pure false rest)
  rw [blanksAndComments_succ]
  exact (reads_takeWhile (List.forall_mem_nil _) hblank).bind (hcomment.bind (reads_pure () rest))

/-- A comment costs one round, and layout goes on behind it. -/
theorem reads_blanksAndComments_comment {cs more rest : List Char} {fuel : Nat}
    (hcomment : Reads comment ('/' :: cs) true more)
    (hmore : Reads (blanksAndComments fuel) more () rest) :
    Reads (blanksAndComments (fuel + 1)) ('/' :: cs) () rest := by
  have hblank : ∀ c ∈ ('/' :: cs).head?, isBlank c = false := by
    intro c hc
    obtain rfl : '/' = c := Option.some.inj hc
    rfl
  rw [blanksAndComments_succ]
  exact (reads_takeWhile (List.forall_mem_nil _) hblank).bind (hcomment.bind hmore)

/-- Layout can stand in front of whatever is passed over. -/
theorem Layout.reads_blanksAndComments {cs text rest : List Char} (h : Layout cs)
    (htext : ∀ fuel, Reads (blanksAndComments (fuel + 1)) text () rest) {fuel : Nat}
    (hfuel : cs.length < fuel) : Reads (blanksAndComments fuel) (cs ++ text) () rest := by
  induction h generalizing fuel with
  | nil =>
    obtain ⟨fuel, rfl⟩ := Nat.exists_eq_add_one_of_ne_zero (Nat.ne_zero_of_lt hfuel)
    exact htext fuel
  | blank hc _ ih =>
    obtain ⟨fuel, rfl⟩ := Nat.exists_eq_add_one_of_ne_zero (Nat.ne_zero_of_lt hfuel)
    intro p
    rw [List.cons_append, blanksAndComments_cons hc]
    exact ih (Nat.lt_of_succ_lt hfuel) _
  | @lineComment line cs hline _ ih =>
    simp only [List.length_append, List.length_cons] at hfuel
    obtain ⟨fuel, rfl⟩ := Nat.exists_eq_add_of_le' (show 2 ≤ fuel by omega)
    have hcomment := reads_comment_line hline ('\n' :: cs ++ text)
      fun c hc => (Option.some.inj hc).symm
    have hbehind : Reads (blanksAndComments (fuel + 1)) ('\n' :: (cs ++ text)) () rest := by
      intro p
      rw [blanksAndComments_cons (by rfl)]
      exact ih (by omega) _
    simpa using reads_blanksAndComments_comment hcomment hbehind
  | @blockComment comment cs hcomment _ ih =>
    simp only [List.length_append, List.length_cons] at hfuel
    obtain ⟨fuel, rfl⟩ := Nat.exists_eq_add_of_le' (show 1 ≤ fuel by omega)
    have hcomment := reads_comment_block hcomment (cs ++ text)
    have hbehind := ih (show cs.length < fuel by omega)
    simpa using reads_blanksAndComments_comment hcomment hbehind

/-- Layout is passed over up to the token behind it. -/
theorem Layout.reads_skipBlanks {cs rest : List Char} (h : Layout cs) (hrest : Bare rest) :
    Reads skipBlanks (cs ++ rest) () rest :=
  fun p => h.reads_blanksAndComments (reads_blanksAndComments_bare hrest)
    (length_lt_length_append cs rest) p

/-- Where no layout stands nothing is passed over. -/
theorem reads_skipBlanks_bare {rest : List Char} (hrest : Bare rest) :
    Reads skipBlanks rest () rest :=
  Layout.nil.reads_skipBlanks hrest

/-- A line comment may be left open at the end of the text. -/
theorem FinalLayout.reads_skipBlanks {cs : List Char} (h : FinalLayout cs) :
    Reads skipBlanks cs () [] := by
  have hnil : Bare [] := fun c hc => absurd hc (by simp)
  cases h with
  | ended h => simpa using h.reads_skipBlanks hnil
  | @openLine layout line h hline =>
    have hcomment := reads_comment_line hline [] (by simp)
    have hend : ∀ fuel, Reads (blanksAndComments fuel) [] () [] := by
      intro fuel
      cases fuel with
      | zero => exact reads_pure () []
      | succ fuel => exact reads_blanksAndComments_bare hnil fuel
    intro p
    apply h.reads_blanksAndComments _ (length_lt_length_append layout _)
    intro fuel
    simpa using reads_blanksAndComments_comment hcomment (hend fuel)

end SceneScript.Ron
