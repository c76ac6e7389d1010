import SceneScript.Proofs.Config.Items
import SceneScript.Proofs.Ron.Punctuation

/-!
Reading a configuration adds up its items. Whatever the layout is, the reader does with the text
what `Given.addAll` does with the items: it overlays the fields that are given on the defaults, and
refuses a field that comes twice.
-/
namespace SceneScript.WriteConfig

open Ron

variable {item : Item} {items : List Item} {cs behind before rest : List Char}

/-- Layout may stand on both sides of the colon. -/
theorem reads_fieldValue {α : Type} {value : Scan α} {text : List Char} {a : α}
    (hbehind : Layout behind) (hbefore : Layout before) (htext : Bare text)
    (h : Reads value text a rest) :
    Reads (fieldValue value) (behind ++ ':' :: (before ++ text)) a rest :=
  (hbehind.reads_skipBlanks (bare_cons (by decide) _)).bind ((reads_consume_char rfl _).bind
    ((hbefore.reads_skipBlanks htext).bind h))

/-- What stands behind the name of a known field is read for the first value only. -/
theorem gives_flag (field : Field) {b : Bool} {text : List Char}
    (h : Reads (fieldValue bool) text b rest) (given : Given) :
    Gives
      (if (given.get field).isSome then throw (.duplicateField field.name recordTitle)
      else do
        let b ← fieldValue bool
        pure (given.set field b))
      text (given.add (.known field b)) rest := by
  by_cases hsome : (given.get field).isSome
  · simp only [Given.add, if_pos hsome]
    exact refuses_throw _ text
  · simp only [Given.add, if_neg hsome]
    exact h.bind (reads_pure _ rest)

/-- One item is read as it is added. -/
theorem gives_readField (h : SpellsItem item cs) (hrest : Delimited rest) (implicitSome : Bool)
    (given : Given) : Gives (readField implicitSome given) (cs ++ rest) (given.add item) rest := by
  obtain ⟨hname, hbehind, hbefore, hvalue⟩ := h
  simp only [List.append_assoc, List.cons_append]
  refine (reads_identifier hname (hbehind.delimited (by decide) _)).bind_gives ?_
  have hbare := hvalue.bare rest
  cases item with
  | known field b =>
    have hread := reads_fieldValue hbehind hbefore hbare (reads_bool hvalue rest)
    have hflag := gives_flag field hread given
    cases field with
    | pretty =>
      rw [Item.name, Field.name, if_pos rfl]
      exact hflag
    | createParentDirs =>
      rw [Item.name, Field.name, if_neg (by decide), if_pos rfl]
      exact hflag
  | other name value hne =>
    have hpretty : name ≠ prettyName := hne .pretty
    have hdirs : name ≠ createParentDirsName := hne .createParentDirs
    rw [Item.name, if_neg hpretty, if_neg hdirs]
    exact (reads_fieldValue hbehind hbefore hbare (reads_value hvalue hrest implicitSome _)).bind
      (reads_pure given rest)

/-! The rounds -/

/-- Every item begins with its name, so neither layout nor a bracket does. -/
theorem SpellsItem.exists_cons (h : SpellsItem item cs) :
    ∃ c tail, cs = c :: tail ∧ isFirst c := by
  obtain ⟨hname, _, _, _⟩ := h
  obtain ⟨c, tail, rfl, hc⟩ := hname.exists_cons
  exact ⟨c, _, rfl, hc⟩

theorem SpellsItems.bare (h : SpellsItems items cs) (rest : List Char) :
    Bare (cs ++ ')' :: rest) := by
  cases h with
  | nil => exact bare_close rest
  | last h | cons h =>
    obtain ⟨c, tail, rfl, hc⟩ := h.exists_cons
    exact bare_of_isFirst hc _

/-- Every item takes at least one character. -/
theorem SpellsItems.length_le (h : SpellsItems items cs) : items.length ≤ cs.length := by
  induction h with
  | nil => exact Nat.le_refl 0
  | last h =>
    obtain ⟨c, tail, rfl, _⟩ := h.exists_cons
    simp
  | cons h _ _ _ ih =>
    obtain ⟨c, tail, rfl, _⟩ := h.exists_cons
    simp only [List.length_append, List.length_cons]
    omega

/-- At the closing parenthesis the fields are read, with a comma before it or without. -/
theorem reads_readFields_close (hbefore : Layout before) (implicitSome : Bool) (fuel : Nat)
    (hadComma : Bool) (given : Given) (rest : List Char) :
    Reads (readFields implicitSome (fuel + 1) hadComma given) (before ++ ')' :: rest) given
      (')' :: rest) :=
  (reads_hasElement_close hbefore hadComma rest).bind (reads_pure given _)

/-- One round, given what becomes of the next ones. -/
theorem gives_readFields_cons {implicitSome hadComma : Bool} {fuel : Nat} {text more : List Char}
    (h : SpellsItem item cs) (hbefore : Layout before) (htext : Delimited text)
    (hcomma : Reads comma text hadComma more)
    (hmore : ∀ given : Given, Gives (readFields implicitSome fuel hadComma given) more
      (given.addAll items) rest) (given : Given) :
    Gives (readFields implicitSome (fuel + 1) true given) (before ++ (cs ++ text))
      (given.addAll (item :: items)) rest := by
  obtain ⟨c, tail, rfl, hc⟩ := h.exists_cons
  rw [Given.addAll_cons]
  exact (reads_hasElement hbefore hc _).bind_gives
    ((gives_readField h htext implicitSome given).bind
      fun given => hcomma.bind_gives (hmore given))

/-- Up to the closing parenthesis, the items are read as they are added. -/
theorem gives_readFields (h : SpellsItems items cs) (hbefore : Layout before)
    (implicitSome : Bool) {fuel : Nat} (hfuel : items.length < fuel) (given : Given)
    (rest : List Char) :
    Gives (readFields implicitSome fuel true given) (before ++ (cs ++ ')' :: rest))
      (given.addAll items) (')' :: rest) := by
  induction h generalizing before fuel given with
  | nil =>
    obtain ⟨fuel, rfl⟩ := Nat.exists_eq_add_one_of_ne_zero (Nat.ne_zero_of_lt hfuel)
    exact reads_readFields_close hbefore implicitSome fuel true given rest
  | @last item cs behind h hbehind =>
    obtain ⟨fuel, rfl⟩ := Nat.exists_eq_add_of_le' (show 2 ≤ fuel from hfuel)
    rw [List.append_assoc]
    apply gives_readFields_cons h hbefore (hbehind.delimited (by decide) rest)
      (reads_comma_close hbehind rest)
    intro given
    exact reads_readFields_close .nil implicitSome fuel false given rest
  | @cons item items cs behind before' others h hbehind hbefore' hitems ih =>
    obtain ⟨fuel, rfl⟩ := Nat.exists_eq_add_one_of_ne_zero (Nat.ne_zero_of_lt hfuel)
    simp only [List.append_assoc, List.cons_append]
    apply gives_readFields_cons h hbefore (hbehind.delimited (by decide) _)
      (reads_comma hbehind hbefore' (hitems.bare rest))
    intro given
    exact ih .nil (Nat.lt_of_succ_lt_succ hfuel) given

/-! The whole text -/

theorem SpellsTitle.exists_cons (h : SpellsTitle cs) (rest : List Char) :
    ∃ c tail, cs ++ '(' :: rest = c :: tail ∧ (c = '(' ∨ isFirst c) := by
  cases h with
  | none => exact ⟨'(', rest, rfl, .inl rfl⟩
  | named hname hbehind =>
    obtain ⟨c, tail, rfl, hc⟩ := hname.exists_cons
    exact ⟨c, _, rfl, .inr hc⟩

/-- The name of the record is read, or nothing where it is left out. -/
theorem SpellsTitle.reads_recordName (h : SpellsTitle cs) (rest : List Char) :
    ∃ layout, Layout layout ∧
      Reads (recordName recordTitle) (cs ++ '(' :: rest) () (layout ++ '(' :: rest) := by
  cases h with
  | none => exact ⟨[], .nil, fun p => ⟨p, rfl⟩⟩
  | @named name layout hname hbehind =>
    refine ⟨layout, hbehind, fun p => ?_⟩
    have hread := reads_identifier hname (hbehind.delimited (c := '(') (by decide) rest) p
    obtain ⟨c, tail, rfl, hc⟩ := hname.exists_cons
    obtain ⟨q, hq⟩ := hread
    refine ⟨q, ?_⟩
    rw [List.append_assoc]
    simp only [recordName, hq, if_true]
    simp [isOther_of_isFirst hc]

/-- Behind the record only layout may follow. -/
theorem reads_recordEnd {behind : List Char} (hbehind : FinalLayout behind) (given : Given) :
    Reads (do
      skipBlanks
      if ← consume ")" then
        skipBlanks
        if (← peek).isSome then throw .trailingCharacters
        pure given.complete
      else throw .expectedRecordEnd) (')' :: behind) given.complete [] :=
  (reads_skipBlanks_bare (bare_close behind)).bind ((reads_consume_char rfl behind).bind
    (hbehind.reads_skipBlanks.bind ((reads_peek []).bind (reads_pure given.complete []))))

/-- A configuration is read as its items are added to nothing. -/
theorem gives_read {text : List Char} (h : SpellsConfig items text) :
    Gives read text (({} : Given).addAll items >>= fun given => pure given.complete) [] := by
  obtain ⟨hlead, htitle, hbefore, hitems, hbehind⟩ := h
  rename_i lead title before inside behind
  let fields := before ++ (inside ++ ')' :: behind)
  obtain ⟨c, tail, hcons, hc⟩ := htitle.exists_cons fields
  obtain ⟨layout, hlayout, hrecord⟩ := htitle.reads_recordName fields
  have hbare : Bare (title ++ '(' :: fields) := by
    rw [hcons]
    rcases hc with rfl | hc
    · exact bare_cons (by decide) tail
    · exact bare_of_isFirst hc tail
  have hhash : (title ++ '(' :: fields).head? ≠ some '#' := by
    rw [hcons]
    rintro ⟨⟩
    exact absurd hc (by decide)
  have hattributes : Reads
      (fun cursor => attributes (cursor.rest.length + 1) false cursor : Scan Bool)
      (title ++ '(' :: fields) false (title ++ '(' :: fields) :=
    fun p => reads_attributes hhash _ p
  -- Rounds are bounded by the length of the text, of which every item takes a part.
  have hfuel : items.length < fields.length + 1 := by
    have hlength := hitems.length_le
    simp only [fields, List.length_append]
    omega
  have hfields : Gives (fun cursor => readFields false (cursor.rest.length + 1) true {} cursor :
      Scan Given) fields (({} : Given).addAll items) (')' :: behind) :=
    gives_readFields hitems hbefore false hfuel {} behind
  exact (hlead.reads_skipBlanks hbare).bind_gives (hattributes.bind_gives
    (hrecord.bind_gives ((hlayout.reads_skipBlanks (bare_cons (by decide) fields)).bind_gives
      ((reads_consume_char rfl fields).bind_gives
        (hfields.bind fun given => reads_recordEnd hbehind given)))))

section

variable {source : String} (h : SpellsConfig items source.toList)

include h

/-- What becomes of the text is what becomes of its items. -/
theorem parse_outcome :
    (∃ given, ({} : Given).addAll items = .ok given ∧ parse source = .ok given.complete) ∨
      ∃ fault position, ({} : Given).addAll items = .error fault ∧
        parse source = .error ⟨fault, position⟩ := by
  have hread := gives_read h
  cases hadd : ({} : Given).addAll items with
  | ok given =>
    rw [hadd] at hread
    obtain ⟨q, hq⟩ := hread ⟨1, 1⟩
    exact .inl ⟨given, rfl, by rw [parse, hq]⟩
  | error fault =>
    rw [hadd] at hread
    obtain ⟨cursor, hcursor⟩ := hread ⟨1, 1⟩
    exact .inr ⟨fault, cursor.position, rfl, by rw [parse, hcursor]⟩

/-- A text is refused only for a field that comes twice. -/
theorem parse_eq_error {error : RonError} (herror : parse source = .error error) :
    ∃ field, error.fault = .duplicateField field.name recordTitle ∧
      1 < (flags field items).length := by
  obtain ⟨given, _, hparse⟩ | ⟨fault, position, hadd, hparse⟩ := parse_outcome h
  · rw [hparse] at herror
    cases herror
  · rw [hparse] at herror
    cases herror
    obtain ⟨field, hfault, hlength⟩ := Given.addAll_eq_error hadd
    rw [Given.get_empty, Option.toList_none, List.nil_append] at hlength
    exact ⟨field, hfault, hlength⟩

/-- What is read has the value that is given for a field, or else the default. -/
theorem parse_eq_ok {config : WriteConfig} (hconfig : parse source = .ok config) (field : Field) :
    (flags field items).length ≤ 1 ∧
      config.get field = (flags field items).head?.getD (({} : WriteConfig).get field) := by
  obtain ⟨given, hadd, hparse⟩ | ⟨fault, position, _, hparse⟩ := parse_outcome h
  · rw [hparse] at hconfig
    cases hconfig
    have hflags := Given.addAll_eq_ok hadd field
    rw [Given.get_empty, Option.toList_none, List.nil_append] at hflags
    rw [← hflags, Given.get_complete]
    cases given.get field with
    | none => exact ⟨Nat.zero_le 1, rfl⟩
    | some b => exact ⟨Nat.le_refl 1, rfl⟩
  · rw [hparse] at hconfig
    cases hconfig

/-- Only a field that is given twice makes these texts invalid. -/
theorem parse_isOk_iff :
    (∃ config, parse source = .ok config) ↔ ∀ field, (flags field items).length ≤ 1 := by
  constructor
  · rintro ⟨config, hconfig⟩ field
    exact (parse_eq_ok h hconfig field).1
  · intro hlength
    cases hparse : parse source with
    | ok config => exact ⟨config, rfl⟩
    | error error =>
      obtain ⟨field, _, htwice⟩ := parse_eq_error h hparse
      exact absurd (hlength field) (Nat.not_le_of_lt htwice)

/-- Only the known items matter, in any order. -/
theorem parse_congr {items' : List Item} {source' : String}
    (h' : SpellsConfig items' source'.toList)
    (hperm : (items.filter Item.isKnown).Perm (items'.filter Item.isKnown)) :
    ∀ config, parse source = .ok config → parse source' = .ok config := by
  intro config hconfig
  have hget (field : Field) := parse_eq_ok h hconfig field
  have hflags (field : Field) : flags field items' = flags field items :=
    flags_eq_of_perm hperm (hget field).1
  obtain ⟨config', hconfig'⟩ := (parse_isOk_iff h').mpr fun field => by
    rw [hflags field]
    exact (hget field).1
  rw [hconfig']
  refine congrArg Except.ok (ext_get fun field => ?_)
  rw [(parse_eq_ok h' hconfig' field).2, hflags field, (hget field).2]

end

def compactText : String :=
  "// compact\nWriteConfig(\n\tpretty: false,note:\"a,)\", limit/*/**/*/:1_000,)"

def compactItems : List Item :=
  [.known .pretty false, .other "note" (.text "a,)") (by decide),
    .other "limit" (.integer 1000) (by decide)]

theorem spells_compactText : SpellsConfig compactItems compactText.toList := by
  have hblank : Layout [' '] := .blank rfl .nil
  have hcomment : Layout ("/*/**/*/".toList ++ []) :=
    .blockComment (.opening (.closing (.closing .nil))) .nil
  have hpretty : SpellsItem (.known .pretty false) "pretty: false".toList :=
    @SpellsItem.mk _ "pretty".toList [] [' '] _ (.plain rfl) .nil hblank .no
  have hnote : SpellsItem (.other "note" (.text "a,)") (by decide)) "note:\"a,)\"".toList :=
    @SpellsItem.mk _ "note".toList [] [] _ (.plain rfl) .nil .nil
      (@SpellsScalar.text "a,)".toList (by simp))
  have hlimit : SpellsItem (.other "limit" (.integer 1000) (by decide))
      "limit/*/**/*/:1_000".toList :=
    @SpellsItem.mk _ "limit".toList _ [] _ (.plain rfl) hcomment .nil
      (@SpellsScalar.integer [] "1_000".toList (.inl rfl) rfl (by simp) (by decide))
  have hitems : SpellsItems compactItems
      "pretty: false,note:\"a,)\", limit/*/**/*/:1_000,".toList :=
    .cons hpretty .nil .nil (.cons hnote .nil hblank (.cons hlimit .nil .nil .nil))
  have hlead : Layout "// compact\n".toList :=
    @Layout.lineComment " compact".toList [] (by decide) .nil
  have htitle : SpellsTitle ("WriteConfig".toList ++ []) := .named (.plain rfl) .nil
  exact .mk hlead htitle (.blank rfl (.blank rfl .nil)) hitems (.ended .nil)

/-- The same field under both spellings of its name. -/
def twiceText : String := "(pretty:true,r#pretty:true)"

def twiceItems : List Item := [.known .pretty true, .known .pretty true]

theorem spells_twiceText : SpellsConfig twiceItems twiceText.toList := by
  have hplain : SpellsItem (.known .pretty true) "pretty:true".toList :=
    @SpellsItem.mk _ "pretty".toList [] [] _ (.plain rfl) .nil .nil .yes
  have hraw : SpellsItem (.known .pretty true) "r#pretty:true".toList :=
    @SpellsItem.mk _ "r#pretty".toList [] [] _
      (.raw (by decide) (List.all_eq_true.mp (by decide))) .nil .nil .yes
  have hitems : SpellsItems twiceItems "pretty:true,r#pretty:true".toList :=
    .cons hplain .nil .nil (.last hraw .nil)
  exact .mk .nil .none .nil hitems (.ended .nil)

end SceneScript.WriteConfig
