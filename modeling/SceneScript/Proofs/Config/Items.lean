import SceneScript.Config.Parse
import SceneScript.Proofs.Ron.Grammar

/-!
Configurations as they are written: items with a name and a value, in any order. The items are
added one after the other to what was given before; a known name that comes again is a fault, and
an unknown one changes nothing.
-/
namespace SceneScript.WriteConfig

open Ron

inductive Field where
  | pretty
  | createParentDirs
  deriving DecidableEq

def Field.name : Field → String
  | .pretty => prettyName
  | .createParentDirs => createParentDirsName

instance {p : Field → Prop} [DecidablePred p] : Decidable (∀ field, p field) :=
  decidable_of_iff (p .pretty ∧ p .createParentDirs)
    ⟨fun h field => match field with
      | .pretty => h.1
      | .createParentDirs => h.2,
    fun h => ⟨h .pretty, h .createParentDirs⟩⟩

def get (config : WriteConfig) : Field → Bool
  | .pretty => config.pretty
  | .createParentDirs => config.createParentDirs

/-- A configuration is nothing but its fields. -/
theorem ext_get {config other : WriteConfig} (h : ∀ field, config.get field = other.get field) :
    config = other := by
  have hpretty : config.pretty = other.pretty := h .pretty
  have hdirs : config.createParentDirs = other.createParentDirs := h .createParentDirs
  cases config
  cases other
  congr

/-- A name with its value, which is a truth value where the name is known. -/
inductive Item where
  | known (field : Field) (b : Bool)
  | other (name : String) (value : Ron.Scalar) (h : ∀ field : Field, name ≠ field.name)

def Item.name : Item → String
  | .known field _ => field.name
  | .other name .. => name

def Item.value : Item → Ron.Scalar
  | .known _ b => .flag b
  | .other _ value _ => value

def Item.isKnown : Item → Bool
  | .known .. => true
  | .other .. => false

def Item.flag? (field : Field) : Item → Option Bool
  | .known given b => if given = field then some b else none
  | .other .. => none

def flags (field : Field) (items : List Item) : List Bool := items.filterMap (Item.flag? field)

theorem flags_cons (field : Field) (item : Item) (items : List Item) :
    flags field (item :: items) = flags field [item] ++ flags field items := by
  simp only [flags, ← List.filterMap_append, List.singleton_append]

/-- Items with unknown names give nothing for any field. -/
theorem flags_filter_isKnown (field : Field) (items : List Item) :
    flags field (items.filter Item.isKnown) = flags field items := by
  have hflag (item : Item) :
      (if item.isKnown then item.flag? field else none) = item.flag? field := by
    cases item <;> rfl
  rw [flags, List.filterMap_filter]
  simp only [hflag]
  rfl

theorem flags_of_length_le_one {field : Field} {items : List Item}
    (h : (flags field items).length ≤ 1) :
    flags field items = [] ∨ ∃ b, flags field items = [b] := by
  cases hflags : flags field items with
  | nil => exact .inl rfl
  | cons b others =>
    rw [hflags, List.length_cons] at h
    obtain rfl := List.length_eq_zero_iff.mp (Nat.le_zero.mp (Nat.le_of_succ_le_succ h))
    exact .inr ⟨b, rfl⟩

/-- Of no more than one value there is only one order. -/
theorem flags_eq_of_perm {field : Field} {items items' : List Item}
    (h : (items.filter Item.isKnown).Perm (items'.filter Item.isKnown))
    (hlength : (flags field items).length ≤ 1) : flags field items' = flags field items := by
  have hperm : (flags field items).Perm (flags field items') := by
    rw [← flags_filter_isKnown field items, ← flags_filter_isKnown field items']
    exact h.filterMap _
  rcases flags_of_length_le_one hlength with hflags | ⟨b, hflags⟩
  · rw [hflags] at hperm ⊢
    exact hperm.nil_eq.symm
  · rw [hflags] at hperm ⊢
    exact hperm.singleton_eq.symm

/-! The spellings of a configuration -/

inductive SpellsItem (item : Item) : List Char → Prop
  | mk {name behind before value : List Char} (hname : SpellsIdentifier item.name name)
      (hbehind : Layout behind) (hbefore : Layout before)
      (hvalue : SpellsScalar item.value value) :
      SpellsItem item (name ++ (behind ++ ':' :: (before ++ value)))

/-- Items with commas between them. A comma can also stand behind the last one. -/
inductive SpellsItems : List Item → List Char → Prop
  | nil : SpellsItems [] []
  | last {item : Item} {cs behind : List Char} (h : SpellsItem item cs) (hbehind : Layout behind) :
      SpellsItems [item] (cs ++ behind)
  | cons {item : Item} {items : List Item} {cs behind before others : List Char}
      (h : SpellsItem item cs) (hbehind : Layout behind) (hbefore : Layout before)
      (hitems : SpellsItems items others) :
      SpellsItems (item :: items) (cs ++ (behind ++ ',' :: (before ++ others)))

inductive SpellsTitle : List Char → Prop
  | none : SpellsTitle []
  | named {name behind : List Char} (hname : SpellsIdentifier recordTitle name)
      (hbehind : Layout behind) : SpellsTitle (name ++ behind)

inductive SpellsConfig (items : List Item) : List Char → Prop
  | mk {lead title before inside behind : List Char} (hlead : Layout lead)
      (htitle : SpellsTitle title) (hbefore : Layout before) (hitems : SpellsItems items inside)
      (hbehind : FinalLayout behind) :
      SpellsConfig items (lead ++ (title ++ '(' :: (before ++ (inside ++ ')' :: behind))))

/-! What is given by items -/

namespace Given

def get (given : Given) : Field → Option Bool
  | .pretty => given.pretty
  | .createParentDirs => given.createParentDirs

def set (given : Given) (field : Field) (b : Bool) : Given :=
  match field with
  | .pretty => { given with pretty := some b }
  | .createParentDirs => { given with createParentDirs := some b }

theorem get_empty (field : Field) : ({} : Given).get field = none := by
  cases field <;> rfl

@[simp] theorem get_set_self (given : Given) (field : Field) (b : Bool) :
    (given.set field b).get field = some b := by
  cases field <;> rfl

theorem get_set_of_ne (given : Given) {field other : Field} (h : field ≠ other) (b : Bool) :
    (given.set field b).get other = given.get other := by
  cases field <;> cases other
  · exact absurd rfl h
  · rfl
  · rfl
  · exact absurd rfl h

/-- A field that was not given has its default. -/
@[simp] theorem get_complete (given : Given) (field : Field) :
    given.complete.get field = (given.get field).getD (({} : WriteConfig).get field) := by
  cases field <;> rfl

def add (given : Given) : Item → Except Fault Given
  | .known field b =>
    if (given.get field).isSome then .error (.duplicateField field.name recordTitle)
    else .ok (given.set field b)
  | .other .. => .ok given

def addAll (given : Given) (items : List Item) : Except Fault Given := items.foldlM add given

/-- Items are taken in one by one, and the first that repeats a field ends this. -/
theorem addAll_cons (given : Given) (item : Item) (items : List Item) :
    given.addAll (item :: items) = given.add item >>= fun given => given.addAll items :=
  List.foldlM_cons

/-- An item that is added puts its value behind those given before. -/
theorem add_eq_ok {given given' : Given} {item : Item} (h : given.add item = .ok given')
    (field : Field) :
    (given'.get field).toList = (given.get field).toList ++ flags field [item] := by
  cases item with
  | known known b =>
    simp only [add] at h
    split at h
    · cases h
    · rename_i hnone
      cases h
      rw [Bool.not_eq_true, Option.isSome_eq_false_iff, Option.isNone_iff_eq_none] at hnone
      by_cases hfield : known = field
      · subst hfield
        simp [flags, Item.flag?, hnone]
      · simp [flags, Item.flag?, hfield, get_set_of_ne]
  | other name value hname =>
    cases h
    simp [flags, Item.flag?]

/-- An item is refused for a field that was given before. -/
theorem add_eq_error {given : Given} {item : Item} {fault : Fault}
    (h : given.add item = .error fault) :
    ∃ field, fault = .duplicateField field.name recordTitle ∧
      1 < ((given.get field).toList ++ flags field [item]).length := by
  cases item with
  | known field b =>
    simp only [add] at h
    split at h
    · rename_i hsome
      cases h
      obtain ⟨a, ha⟩ := Option.isSome_iff_exists.mp hsome
      exact ⟨field, rfl, by simp [flags, Item.flag?, ha]⟩
    · cases h
  | other name value hname => cases h

/-- Items that are added give each field at most once, counting what was given before. -/
theorem addAll_eq_ok {given given' : Given} {items : List Item}
    (h : given.addAll items = .ok given') (field : Field) :
    (given'.get field).toList = (given.get field).toList ++ flags field items := by
  induction items generalizing given with
  | nil =>
    cases h
    simp [flags]
  | cons item items ih =>
    rw [addAll_cons] at h
    cases hadd : given.add item with
    | error fault =>
      rw [hadd] at h
      cases h
    | ok mid =>
      rw [hadd] at h
      rw [ih h, add_eq_ok hadd, flags_cons field item items, List.append_assoc]

/-- Items are refused only for a field that comes more than once. -/
theorem addAll_eq_error {given : Given} {items : List Item} {fault : Fault}
    (h : given.addAll items = .error fault) :
    ∃ field, fault = .duplicateField field.name recordTitle ∧
      1 < ((given.get field).toList ++ flags field items).length := by
  induction items generalizing given with
  | nil => cases h
  | cons item items ih =>
    rw [addAll_cons] at h
    cases hadd : given.add item with
    | error fault' =>
      rw [hadd] at h
      cases h
      obtain ⟨field, hfault, hlength⟩ := add_eq_error hadd
      refine ⟨field, hfault, ?_⟩
      rw [flags_cons field item items, ← List.append_assoc, List.length_append]
      exact Nat.lt_add_right _ hlength
    | ok mid =>
      rw [hadd] at h
      obtain ⟨field, hfault, hlength⟩ := ih h
      refine ⟨field, hfault, ?_⟩
      rwa [add_eq_ok hadd, List.append_assoc, ← flags_cons field item items] at hlength

end Given

end SceneScript.WriteConfig
