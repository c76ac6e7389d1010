import Mathlib.Tactic.SplitIfs
import SceneScript.Build.Writer
import SceneScript.Proofs.Fallible

/-!
What writing a file leaves of a disk. Nothing is removed, and nothing is changed but the one file
that the path denotes; besides this file there may be new directories, each of which a path cut
from the parent of the given one leads to. A write that fails touches no file at all, but the
directories that it has made stay.
-/
namespace SceneScript

namespace Disk

/-! Walking -/

/-- A walk along some names goes on from where a walk along the first of them ends. -/
theorem walk_append (disk : Disk) (start : Place) (names names' : List String) :
    disk.walk start (names ++ names') =
      (do disk.walk (← disk.walk start names) names' : Access Place) := by
  induction names generalizing start with
  | nil => rfl
  | cons name names ih =>
    rw [List.cons_append, walk, walk]
    split_ifs
    · exact ih start
    · exact ih start.tail
    · rfl
    · cases disk.find? (name :: start) with
      | none => rfl
      | some entry =>
        cases entry with
        | file contents => rfl
        | directory => exact ih (name :: start)

/-- What could be walked can still be walked while the directories are there. -/
theorem walk_of_kept {before after : Disk}
    (h : ∀ place, before.find? place = some .directory → after.find? place = some .directory)
    {start place : Place} {names : List String} (hwalk : before.walk start names = .ok place) :
    after.walk start names = .ok place := by
  induction names generalizing start with
  | nil => exact hwalk
  | cons name names ih =>
    rw [walk] at hwalk ⊢
    split_ifs at hwalk ⊢
    · exact ih hwalk
    · exact ih hwalk
    · cases hwalk
    · cases hfind : before.find? (name :: start) with
      | none => simp [hfind, refuse] at hwalk
      | some entry =>
        cases entry with
        | file contents => simp [hfind, refuse] at hwalk
        | directory =>
          rw [hfind] at hwalk
          rw [h _ hfind]
          exact ih hwalk

/-- Names stand for an entry of a directory if the last one is not dots. -/
theorem target_eq_entry_iff {disk : Disk} {start place : Place} {names : List String} :
    disk.target start names = .ok (.entry place) ↔
      ∃ above name directory, names = above ++ [name] ∧ ¬(name = "." ∨ name = "..") ∧
        disk.walk start above = .ok directory ∧ place = name :: directory := by
  rcases List.eq_nil_or_concat names with rfl | ⟨above, name, rfl⟩
  · simp [target]
  · rw [List.concat_eq_append, target, List.getLast?_concat, List.dropLast_concat]
    dsimp only
    rw [except_bind_eq_ok_iff]
    constructor
    · rintro ⟨directory, hwalk, h⟩
      split_ifs at h with hdots
      · cases h
      · cases h
        exact ⟨above, name, directory, rfl, hdots, hwalk, rfl⟩
    · rintro ⟨above', name', directory, hnames, hdots, hwalk, rfl⟩
      obtain ⟨rfl, hname⟩ := List.append_inj' hnames rfl
      obtain rfl := List.singleton_inj.mp hname
      exact ⟨directory, hwalk, if_neg hdots⟩

theorem startOf_congr {disk disk' : Disk} (h : disk.workingDirectory = disk'.workingDirectory)
    (path : Path) : disk.startOf path = disk'.startOf path := by
  rw [startOf, startOf, h]

/-- A directory that is there can be walked into by its name. -/
theorem walk_singleton {disk : Disk} {directory : Place} {name : String}
    (hdots : ¬(name = "." ∨ name = "..")) (hname : checkName (name :: directory) = .ok ())
    (hfind : disk.find? (name :: directory) = some .directory) :
    disk.walk directory [name] = .ok (name :: directory) := by
  rw [not_or] at hdots
  rw [checkName] at hname
  split_ifs at hname with hlong
  · cases hname
  · rw [walk, if_neg hdots.1, if_neg hdots.2, if_neg hlong, hfind]
    rfl

/-! Growing -/

/-- From one disk to the other, nothing is removed or changed, and what is new are directories, of
one sort; the places of another sort are not looked at. -/
structure Grows (before after : Disk) (made spared : Place → Prop) : Prop where
  workingDirectory : after.workingDirectory = before.workingDirectory
  kept : ∀ {place entry}, ¬spared place → before.find? place = some entry →
    after.find? place = some entry
  added : ∀ {place entry}, ¬spared place → before.find? place = none →
    after.find? place = some entry → entry = .directory ∧ made place

abbrev Nowhere : Place → Prop := fun _ => False

namespace Grows

variable {before between after : Disk} {made made' spared : Place → Prop}

theorem refl (disk : Disk) : Grows disk disk made spared where
  workingDirectory := rfl
  kept _ h := h
  added _ h h' := by simp [h] at h'

theorem mono (h : Grows before after made spared) (hmade : ∀ place, made place → made' place) :
    Grows before after made' spared where
  workingDirectory := h.workingDirectory
  kept := h.kept
  added hspared hnone hsome := (h.added hspared hnone hsome).imp_right (hmade _)

/-- What two steps make is what the first has made or the second makes. -/
theorem trans (h : Grows before between made spared) (h' : Grows between after made spared) :
    Grows before after made spared where
  workingDirectory := h'.workingDirectory.trans h.workingDirectory
  kept hspared hsome := h'.kept hspared (h.kept hspared hsome)
  added := by
    intro place entry hspared hnone hsome
    cases hbetween : between.find? place with
    | none => exact h'.added hspared hbetween hsome
    | some there =>
      obtain rfl : there = entry := by simpa [h'.kept hspared hbetween] using hsome
      exact h.added hspared hnone hbetween

theorem spare (h : Grows before after made Nowhere) : Grows before after made spared where
  workingDirectory := h.workingDirectory
  kept _ := h.kept id
  added _ := h.added id

/-- Every walk that was possible leads to the same place after the disk has grown. -/
theorem walk_eq_ok (h : Grows before after made Nowhere) {start place : Place} {names : List String}
    (hwalk : before.walk start names = .ok place) : after.walk start names = .ok place :=
  walk_of_kept (fun _ => h.kept id) hwalk

/-- The files are the same. -/
theorem find?_eq_file_iff (h : Grows before after made Nowhere) (place : Place)
    (contents : ByteArray) :
    after.find? place = some (.file contents) ↔ before.find? place = some (.file contents) := by
  constructor
  · intro hafter
    cases hbefore : before.find? place with
    | none => cases (h.added id hbefore hafter).1
    | some there => rw [← h.kept id hbefore, hafter]
  · exact h.kept id

end Grows

/-! Making directories -/

/-- A directory that is put where nothing was is all that is new. -/
theorem grows_put_directory {disk : Disk} {place : Place} (hplace : place ≠ [])
    (hnone : disk.find? place = none) :
    Grows disk (disk.put place .directory) (· = place) Nowhere where
  workingDirectory := rfl
  kept := by
    intro other entry _ hsome
    have hne : other ≠ place := by rintro rfl; simp [hnone] at hsome
    rw [find?_put_of_ne disk _ hne, hsome]
  added := by
    intro other entry _ hother hsome
    by_cases heq : other = place
    · subst heq
      rw [find?_put_self disk _ hplace] at hsome
      exact ⟨(Option.some.inj hsome).symm, rfl⟩
    · rw [find?_put_of_ne disk _ heq, hother] at hsome
      cases hsome

variable {disk after : Disk} {start : Place} {segments : List Segment}

/-- What is made is missing before, and is where the names lead afterwards. -/
theorem makeDirectory_eq_ok (h : disk.makeDirectory start segments = .ok after) :
    ∃ place, Grows disk after (· = place) Nowhere ∧
      after.walk start (segments.map (·.name)) = .ok place := by
  rw [makeDirectory] at h
  obtain ⟨_, -, h⟩ := except_bind_eq_ok_iff.mp h
  obtain ⟨target, htarget, h⟩ := except_bind_eq_ok_iff.mp h
  cases target with
  | directory => cases h
  | entry place =>
    obtain ⟨above, name, directory, hnames, hdots, hwalk, rfl⟩ := target_eq_entry_iff.mp htarget
    obtain ⟨_, hname, h⟩ := except_bind_eq_ok_iff.mp h
    cases hfind : disk.find? (name :: directory) with
    | some entry => rw [hfind] at h; cases h
    | none =>
      rw [hfind] at h
      cases h
      have hgrows := grows_put_directory (List.cons_ne_nil name directory) hfind
      refine ⟨name :: directory, hgrows, ?_⟩
      rw [hnames, walk_append, hgrows.walk_eq_ok hwalk]
      exact walk_singleton hdots hname (find?_put_self disk .directory (List.cons_ne_nil _ _))

/-- Making one directory is a step: at most that directory is new. -/
theorem ensureDirectory_eq_ok (h : disk.ensureDirectory start segments = .ok after) :
    Grows disk after (fun place => after.walk start (segments.map (·.name)) = .ok place) Nowhere := by
  rw [ensureDirectory] at h
  cases hmake : disk.makeDirectory start segments with
  | ok made =>
    rw [hmake] at h
    cases h
    obtain ⟨place, hgrows, hwalk⟩ := makeDirectory_eq_ok hmake
    exact hgrows.mono fun other hother => hother ▸ hwalk
  | error fault =>
    rw [hmake] at h
    dsimp only at h
    split_ifs at h
    cases h
    exact .refl disk

def OnTheWay (disk : Disk) (start : Place) (segments : List Segment) (place : Place) : Prop :=
  ∃ above, above <+: segments ∧ disk.walk start (above.map (·.name)) = .ok place

theorem OnTheWay.extend {above : List Segment} {place : Place}
    (h : OnTheWay disk start above place) (habove : above <+: segments) :
    OnTheWay disk start segments place :=
  let ⟨first, hfirst, hwalk⟩ := h
  ⟨first, hfirst.trans habove, hwalk⟩

/-- A way along directories that are kept is still a way. -/
theorem OnTheWay.of_kept {place : Place} (h : OnTheWay disk start segments place)
    (hkept : ∀ place, disk.find? place = some .directory → after.find? place = some .directory) :
    OnTheWay after start segments place :=
  let ⟨first, hfirst, hwalk⟩ := h
  ⟨first, hfirst, walk_of_kept hkept hwalk⟩

/-- Making directories is a run of such steps, whether it gets to its end or not. -/
theorem grows_ensureAll (disk : Disk) (start : Place) (segments : List Segment) :
    Grows disk (disk.ensureAll start segments).2
      (OnTheWay (disk.ensureAll start segments).2 start segments.reverse) Nowhere := by
  induction segments generalizing disk with
  | nil => exact .refl disk
  | cons segment above ih =>
    have step {disk after : Disk}
        (h : disk.ensureDirectory start (segment :: above).reverse = .ok after) :
        Grows disk after (OnTheWay after start (segment :: above).reverse) Nowhere :=
      (ensureDirectory_eq_ok h).mono fun place hwalk => ⟨_, List.prefix_rfl, hwalk⟩
    have habove : above.reverse <+: (segment :: above).reverse := by
      rw [List.reverse_cons]
      exact List.prefix_append _ _
    have hrest := (ih disk).mono fun place h => h.extend habove
    rw [ensureAll]
    cases hfirst : disk.ensureDirectory start (segment :: above).reverse with
    | ok made => exact step hfirst
    | error fault =>
      cases fault with
      | system fault =>
        cases fault with
        | noSuchEntry =>
          -- The directories above are made first, and then this one is tried again.
          dsimp only
          cases hall : disk.ensureAll start above with
          | mk result between =>
            rw [hall] at hrest
            cases result with
            | error fault => exact hrest
            | ok _ =>
              dsimp only at hrest ⊢
              cases hagain : between.ensureDirectory start (segment :: above).reverse with
              | error fault => exact hrest
              | ok made =>
                have hlast := step hagain
                exact (hrest.mono fun place h => h.of_kept fun _ => hlast.kept id).trans hlast
        | _ => exact .refl disk
      | _ => exact .refl disk

/-- Making the directories above a path adds directories on the way of that path, if anything. -/
theorem grows_ensureParent (disk : Disk) (path : String) :
    Grows disk (disk.ensureParent path).2
      (OnTheWay (disk.ensureParent path).2 (disk.startOf (Path.ofString path))
        (Path.ofString path).parent) Nowhere := by
  simpa only [ensureParent, List.reverse_reverse] using
    grows_ensureAll disk (disk.startOf (Path.ofString path)) (Path.ofString path).parent.reverse

/-! Writing -/

def Denotes (disk : Disk) (path : String) (place : Place) : Prop :=
  disk.target (disk.startOf (Path.ofString path)) (Path.ofString path).names = .ok (.entry place)

/-- What is written is put where the path leads to, unless a directory is there. -/
theorem writeBytes_eq_ok {path : String} {contents : ByteArray}
    (h : disk.writeBytes path contents = .ok after) :
    ∃ place, checkPath path = .ok () ∧ disk.Denotes path place ∧
      (Path.ofString path).endsInSlash = false ∧ checkName place = .ok () ∧
      disk.find? place ≠ some .directory ∧ after = disk.put place (.file contents) := by
  rw [writeBytes] at h
  obtain ⟨_, hpath, h⟩ := except_bind_eq_ok_iff.mp h
  obtain ⟨target, htarget, h⟩ := except_bind_eq_ok_iff.mp h
  cases target with
  | directory => cases h
  | entry place =>
    dsimp only at h
    split_ifs at h with hslash
    · cases h
    · obtain ⟨_, hname, h⟩ := except_bind_eq_ok_iff.mp h
      split at h
      · cases h
      · next hfind =>
        cases h
        exact ⟨place, hpath, htarget, by simpa using hslash, hname, hfind, rfl⟩

/-- The root is no entry that a path could denote. -/
theorem Denotes.ne_nil {path : String} {place : Place} (h : disk.Denotes path place) :
    place ≠ [] := by
  obtain ⟨_, name, directory, _, _, _, rfl⟩ := target_eq_entry_iff.mp h
  exact List.cons_ne_nil name directory

/-- Where a path leads depends on the directories only. -/
theorem Denotes.of_kept {path : String} {place : Place} (h : disk.Denotes path place)
    (hstart : after.workingDirectory = disk.workingDirectory)
    (hkept : ∀ place, disk.find? place = some .directory → after.find? place = some .directory) :
    after.Denotes path place := by
  obtain ⟨above, name, directory, hnames, hdots, hwalk, rfl⟩ := target_eq_entry_iff.mp h
  rw [Denotes, startOf_congr hstart]
  exact target_eq_entry_iff.mpr
    ⟨above, name, directory, hnames, hdots, walk_of_kept hkept hwalk, rfl⟩

/-- A file that is put somewhere changes its own place only. -/
theorem grows_put_file {place : Place} (contents : ByteArray) (made : Place → Prop) :
    Grows disk (disk.put place (.file contents)) made (· = place) where
  workingDirectory := rfl
  kept hne hsome := (find?_put_of_ne disk _ hne).trans hsome
  added hne hnone hsome := by simp [find?_put_of_ne disk _ hne, hnone] at hsome

theorem kept_put_file {place : Place} (hfind : disk.find? place ≠ some .directory)
    (contents : ByteArray) (other : Place) (hother : disk.find? other = some .directory) :
    (disk.put place (.file contents)).find? other = some .directory := by
  have hne : other ≠ place := by rintro rfl; exact hfind hother
  rw [find?_put_of_ne disk _ hne, hother]

/-- What has been written can be read again by the same path. -/
theorem readBytes_of_find? {path : String} {place : Place} {contents : ByteArray}
    (hpath : checkPath path = .ok ()) (h : disk.Denotes path place)
    (hslash : (Path.ofString path).endsInSlash = false) (hname : checkName place = .ok ())
    (hfind : disk.find? place = some (.file contents)) :
    disk.readBytes path = .ok contents := by
  rw [Denotes] at h
  simp [readBytes, hpath, h, hname, hfind, hslash, Bind.bind, Except.bind]

/-- A write that succeeds leaves a file with the given contents where the path leads to. -/
theorem writeBytes_leaves {path : String} {contents : ByteArray}
    (h : disk.writeBytes path contents = .ok after) :
    ∃ place, after.Denotes path place ∧ after.find? place = some (.file contents) ∧
      after.readBytes path = .ok contents ∧
      (∀ made, Grows disk after made (· = place)) ∧
      ∀ other, disk.find? other = some .directory → after.find? other = some .directory := by
  obtain ⟨place, hpath, hplace, hslash, hname, hfind, rfl⟩ := writeBytes_eq_ok h
  have hkept := kept_put_file hfind contents
  have hwritten := find?_put_self disk (.file contents) hplace.ne_nil
  have hplace' : (disk.put place (.file contents)).Denotes path place := hplace.of_kept rfl hkept
  exact ⟨place, hplace', hwritten, readBytes_of_find? hpath hplace' hslash hname hwritten,
    grows_put_file contents, hkept⟩

end Disk

namespace Writer

open Disk

/-- The places where directories may be made for a call. -/
def MayMake (call : WriteCall) (disk : Disk) (place : Place) : Prop :=
  call.config.createParentDirs = true ∧
    disk.OnTheWay (disk.startOf (Path.ofString call.path)) (Path.ofString call.path).parent place

/-- Making the directories that the configuration asks for. -/
theorem grows_parents (call : WriteCall) (disk : Disk) {result : Access Unit} {between : Disk}
    (h : (if call.config.createParentDirs then disk.ensureParent call.path else (.ok (), disk)) =
      (result, between)) :
    Grows disk between (MayMake call between) Nowhere := by
  split_ifs at h with hmake
  · have hgrows := grows_ensureParent disk call.path
    rw [h] at hgrows
    refine hgrows.mono fun place hplace => ⟨hmake, ?_⟩
    rwa [startOf_congr hgrows.workingDirectory]
  · cases h
    exact .refl disk

/-- What the writer touches. If it succeeds, the path leads to a file with the given contents, which
may replace another file but no directory, and reads as these; if it fails, all files are what
they were. Every other entry stays, and the other new ones are directories on the way to the parent
of the path, which are made only if the configuration says so. -/
theorem files_writes_only (call : WriteCall) (world : World) :
    (∃ place after, files call world = (.ok (), { world with disk := after }) ∧
      after.Denotes call.path place ∧
      world.disk.find? place ≠ some .directory ∧
      after.find? place = some (.file call.contents.toUTF8) ∧
      after.readBytes call.path = .ok call.contents.toUTF8 ∧
      Grows world.disk after (MayMake call after) (· = place)) ∨
    (∃ fault after, files call world = (.error fault, { world with disk := after }) ∧
      (∀ place contents, after.find? place = some (.file contents) ↔
        world.disk.find? place = some (.file contents)) ∧
      Grows world.disk after (MayMake call after) Nowhere) := by
  rw [files, writeFile]
  cases hparents :
    if call.config.createParentDirs then world.disk.ensureParent call.path
    else (.ok (), world.disk) with
  | mk result between =>
    have hgrows := grows_parents call world.disk hparents
    cases result with
    | error fault =>
      exact .inr ⟨fault, between, rfl, hgrows.find?_eq_file_iff, hgrows⟩
    | ok _ =>
      dsimp only
      cases hwrite : between.writeBytes call.path call.contents.toUTF8 with
      | error fault => exact .inr ⟨fault, between, rfl, hgrows.find?_eq_file_iff, hgrows⟩
      | ok after =>
        obtain ⟨place, hplace, hfind, hread, hwritten, hkept⟩ := writeBytes_leaves hwrite
        have hfree : world.disk.find? place ≠ some .directory := by
          intro hdirectory
          rw [hkept place (hgrows.kept id hdirectory)] at hfind
          cases hfind
        refine .inl ⟨place, after, rfl, hplace, hfree, hfind, hread, ?_⟩
        have hmade (other : Place) (h : MayMake call between other) : MayMake call after other := by
          refine ⟨h.1, ?_⟩
          rw [startOf_congr (hwritten fun _ => False).workingDirectory]
          exact h.2.of_kept hkept
        exact (hgrows.mono hmade).spare.trans (hwritten _)

/-- A path that goes up again, by way of a directory that is not there yet. -/
def dottedCall : WriteCall where
  path := "a/./b/../c.json"
  contents := "Hi"
  config := { createParentDirs := true }

/-- The file is written, and stands beside the directory that was made on the way to it. -/
theorem files_writes_only_dottedCall :
    ∃ after, files dottedCall {} = (.ok (), { disk := after }) ∧
      after.readBytes "a/./b/../c.json" = .ok "Hi".toUTF8 ∧
      after.entries = [(["c.json", "a"], .file "Hi".toUTF8), (["b", "a"], .directory),
        (["a"], .directory)] := by
  have hresult : (files dottedCall {}).1.isOk := by decide +kernel
  have hentries : (files dottedCall {}).2.disk.entries =
      [(["c.json", "a"], .file "Hi".toUTF8), (["b", "a"], .directory), (["a"], .directory)] := by
    rfl
  rcases files_writes_only dottedCall {} with
    ⟨_, after, hfiles, _, _, _, hread, _⟩ | ⟨fault, after, hfiles, _⟩
  · rw [hfiles] at hentries
    exact ⟨after, hfiles, hread, hentries⟩
  · rw [hfiles] at hresult
    cases hresult

end Writer

end SceneScript
