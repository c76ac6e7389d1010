import SceneScript.Disk.Basic

/-!
Disks whose files have been emptied. Writing does not look into files: on the emptied disk it
succeeds or fails just as it does on the disk itself, and leaves there what is left here, emptied.
-/
namespace SceneScript

def Entry.emptied : Entry → Entry
  | .file _ => .file .empty
  | .directory => .directory

namespace Disk

def emptied (disk : Disk) : Disk :=
  { disk with entries := disk.entries.map fun p => (p.1, p.2.emptied) }

theorem lookup_map_emptied (entries : List (Place × Entry)) (place : Place) :
    (entries.map fun p => (p.1, p.2.emptied)).lookup place =
      (entries.lookup place).map Entry.emptied := by
  induction entries with
  | nil => rfl
  | cons p entries ih =>
    rw [List.map_cons, List.lookup_cons, List.lookup_cons]
    cases place == p.1 with
    | true => rfl
    | false => exact ih

variable (disk : Disk) (start place : Place)

/-- The same places are taken, by entries of the same sort. -/
theorem find?_emptied : disk.emptied.find? place = (disk.find? place).map Entry.emptied := by
  by_cases h : place = []
  · simp [find?, h, Entry.emptied]
  · rw [find?, find?, if_neg h, if_neg h]
    exact lookup_map_emptied disk.entries place

theorem emptied_put (entry : Entry) :
    (disk.put place entry).emptied = disk.emptied.put place entry.emptied := by
  simp only [put, emptied, List.map_cons, List.filter_map]
  rfl

theorem walk_emptied (names : List String) :
    disk.emptied.walk start names = disk.walk start names := by
  induction names generalizing start with
  | nil => rfl
  | cons name names ih =>
    rw [walk, walk, find?_emptied, ih, ih, ih]
    cases disk.find? (name :: start) with
    | none => rfl
    | some entry => cases entry <;> rfl

/-- Where a path leads does not depend on what is in the files. -/
theorem target_emptied (names : List String) :
    disk.emptied.target start names = disk.target start names := by
  rw [target, target]
  cases names.getLast? with
  | none => rfl
  | some name => simp only [walk_emptied]

/-- Whether a directory can be made does not depend on what is in the files. -/
theorem makeDirectory_emptied (segments : List Segment) :
    disk.emptied.makeDirectory start segments =
      emptied <$> disk.makeDirectory start segments := by
  rw [makeDirectory, makeDirectory, target_emptied, map_bind]
  apply bind_congr
  intro _
  rw [map_bind]
  apply bind_congr
  rintro (_ | place)
  · rfl
  · dsimp only
    rw [map_bind]
    apply bind_congr
    intro _
    rw [find?_emptied]
    cases disk.find? place with
    | some entry => rfl
    | none => exact congrArg Except.ok (emptied_put disk place .directory).symm

theorem isDirectory_emptied (segments : List Segment) :
    disk.emptied.isDirectory start segments = disk.isDirectory start segments := by
  rw [isDirectory, isDirectory, walk_emptied]

theorem ensureDirectory_emptied (segments : List Segment) :
    disk.emptied.ensureDirectory start segments =
      emptied <$> disk.ensureDirectory start segments := by
  rw [ensureDirectory, ensureDirectory, makeDirectory_emptied, isDirectory_emptied]
  cases disk.makeDirectory start segments with
  | ok made => rfl
  | error fault => cases disk.isDirectory start segments <;> rfl

theorem ensureAll_emptied (segments : List Segment) :
    disk.emptied.ensureAll start segments =
      ((disk.ensureAll start segments).1, (disk.ensureAll start segments).2.emptied) := by
  induction segments generalizing disk with
  | nil => rfl
  | cons segment above ih =>
    rw [ensureAll, ensureAll, ensureDirectory_emptied]
    cases disk.ensureDirectory start (segment :: above).reverse with
    | ok made => rfl
    | error fault =>
      cases fault with
      | system fault =>
        cases fault with
        | noSuchEntry =>
          -- The directories above are made first, and then this one is tried again.
          dsimp only [Functor.map, Except.map]
          rw [ih]
          rcases disk.ensureAll start above with ⟨_ | _, between⟩
          · rfl
          · dsimp only
            rw [ensureDirectory_emptied]
            cases between.ensureDirectory start (segment :: above).reverse <;> rfl
        | _ => rfl
      | _ => rfl

theorem startOf_emptied (path : Path) : disk.emptied.startOf path = disk.startOf path := rfl

/-- Making the directories above a path fails or succeeds with the files emptied as it does with
them. -/
theorem ensureParent_emptied (path : String) :
    disk.emptied.ensureParent path =
      ((disk.ensureParent path).1, (disk.ensureParent path).2.emptied) :=
  ensureAll_emptied disk _ _

/-- Writing fails or succeeds whatever is written and whatever was written before. -/
theorem writeBytes_emptied (path : String) (contents : ByteArray) :
    disk.emptied.writeBytes path .empty = emptied <$> disk.writeBytes path contents := by
  rw [writeBytes, writeBytes, map_bind]
  apply bind_congr
  intro _
  dsimp only
  rw [map_bind, startOf_emptied, target_emptied]
  apply bind_congr
  rintro (_ | place)
  · rfl
  · dsimp only
    split
    · rfl
    · rw [map_bind]
      apply bind_congr
      intro _
      rw [find?_emptied]
      have hput := (emptied_put disk place (.file contents)).symm
      cases disk.find? place with
      | none => exact congrArg Except.ok hput
      | some entry =>
        cases entry with
        | directory => rfl
        | file _ => exact congrArg Except.ok hput

/-- What is written does not matter, and neither does what was written before. -/
theorem writeFile_emptied (path : String) (contents : ByteArray) (makeParents : Bool) :
    disk.emptied.writeFile path .empty makeParents =
      ((disk.writeFile path contents makeParents).1,
        (disk.writeFile path contents makeParents).2.emptied) := by
  have hparents : (if makeParents then disk.emptied.ensureParent path else (.ok (), disk.emptied)) =
      ((if makeParents then disk.ensureParent path else (.ok (), disk)).1,
        (if makeParents then disk.ensureParent path else (.ok (), disk)).2.emptied) := by
    cases makeParents with
    | false => rfl
    | true => exact ensureParent_emptied disk path
  rw [writeFile, writeFile, hparents]
  rcases if makeParents then disk.ensureParent path else (.ok (), disk) with ⟨_ | _, between⟩
  · rfl
  · dsimp only
    rw [writeBytes_emptied between path contents]
    cases between.writeBytes path contents <;> rfl

end Disk

end SceneScript
