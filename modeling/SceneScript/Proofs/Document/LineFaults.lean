import Mathlib.Data.List.Induction
import SceneScript.Proofs.Document.Parse

/-!
Lines against the speakers that speak them. An object whose members are texts is read as a line
just when a speaker would speak this line, and otherwise its first fault is found: a member that
is the second of its sort counts before anything else, and the earliest of these before the others.
-/
namespace SceneScript

open Json

namespace Line

variable {ms : List (String × String)} {line : Line}

/-! What the members say -/

/-- The members that name an image, and the others, which each name a speaker. -/
def images (ms : List (String × String)) : List (String × String) :=
  ms.filter fun m => m.1 = "image"

def speeches (ms : List (String × String)) : List (String × String) :=
  ms.filter fun m => m.1 ≠ "image"

def Single (ms : List (String × String)) : Prop :=
  (images ms).length ≤ 1 ∧ (speeches ms).length ≤ 1

instance (ms : List (String × String)) : Decidable (Single ms) :=
  inferInstanceAs (Decidable (_ ∧ _))

/-- One member is spoken, and a second one may name an image; a speaker speaks the line. -/
inductive Spoken (ms : List (String × String)) (line : Line) : Prop
  | plain {name text : String} (hms : ms = [(name, text)]) (hkey : name ≠ "image")
      (hline : (do (← Speaker.ofName name).speak text) = .ok line) : Spoken ms line
  | shown {name text image : String} (hms : ms.Perm [(name, text), ("image", image)])
      (hkey : name ≠ "image") (himage : image ≠ "")
      (hline : (do (← Speaker.ofName name).speakWithImage text image) = .ok line) : Spoken ms line

/-- What is reported about the members, if anything is wrong: the earliest one that is the second
of its sort, or else what is missing or empty. -/
inductive FirstFault (ms : List (String × String)) : Unsuitable → Prop
  -- A second member is the earliest one when those before it are still single.
  | repeatedImage {before after : List (String × String)} {image : String}
      (hms : ms = before ++ ("image", image) :: after) (hbefore : Single before)
      (himage : images before ≠ []) : FirstFault ms (.repeatedField "image")
  | severalSpeakers {before after : List (String × String)} {first second text text' : String}
      (hms : ms = before ++ (second, text') :: after) (hbefore : Single before)
      (hkey : second ≠ "image") (hfirst : speeches before = [(first, text)]) :
      FirstFault ms (.rejected
        ("dialogue line has more than one speaker: '" ++ first ++ "' and '" ++ second ++ "'"))
  | noSpeaker (hms : Single ms) (hnone : speeches ms = []) :
      FirstFault ms (.rejected "dialogue line has no speaker")
  | emptySpeaker {text : String} (hms : Single ms) (hsole : speeches ms = [("", text)]) :
      FirstFault ms (.rejected "dialogue line has an empty speaker name")
  | emptyText {name : String} (hms : Single ms) (hsole : speeches ms = [(name, "")])
      (hname : name ≠ "") :
      FirstFault ms (.rejected ("dialogue line from '" ++ name ++ "' has empty text"))
  | emptyImage {name text : String} (hms : Single ms) (hsole : speeches ms = [(name, text)])
      (hname : name ≠ "") (htext : text ≠ "") (himage : images ms = [("image", "")]) :
      FirstFault ms (.rejected ("dialogue line from '" ++ name ++ "' has an empty image name"))

/-! Lines that are spoken -/

/-- What the members have to be, said by sorts, is what they are in a well-formed line. -/
theorem spoken_iff : Spoken ms line ↔ line.Valid ∧ ms.Perm line.texts := by
  constructor
  · intro h
    cases h with
    | plain hms hkey hline =>
      obtain ⟨speaker, hspeaker, hline⟩ := except_bind_eq_ok_iff.mp hline
      refine ⟨Speaker.valid_of_speakWithImage hspeaker hline, ?_⟩
      obtain ⟨_, _, rfl⟩ := Speaker.ofName_eq_ok_iff.mp hspeaker
      obtain ⟨_, rfl⟩ := Speaker.speakWithImage_eq_ok_iff.mp hline
      rw [hms]
      exact List.Perm.refl _
    | shown hms hkey himage hline =>
      obtain ⟨speaker, hspeaker, hline⟩ := except_bind_eq_ok_iff.mp hline
      refine ⟨Speaker.valid_of_speakWithImage hspeaker hline, ?_⟩
      obtain ⟨_, _, rfl⟩ := Speaker.ofName_eq_ok_iff.mp hspeaker
      obtain ⟨_, rfl⟩ := Speaker.speakWithImage_eq_ok_iff.mp hline
      rw [if_neg himage]
      exact hms
  · intro h
    obtain ⟨⟨hspeaker, hkey, htext, himage⟩, hms⟩ := h
    obtain ⟨name, text, image⟩ := line
    have hname : Speaker.ofName name = .ok ⟨name⟩ :=
      Speaker.ofName_eq_ok_iff.mpr ⟨hspeaker, hkey, rfl⟩
    cases image with
    | none =>
      refine .plain (List.perm_singleton.mp hms) hkey ?_
      exact except_bind_eq_ok_iff.mpr
        ⟨_, hname, Speaker.speakWithImage_eq_ok_iff.mpr ⟨htext, rfl⟩⟩
    | some image =>
      have himage : image ≠ "" := by simpa using himage
      refine .shown hms hkey himage ?_
      exact except_bind_eq_ok_iff.mpr
        ⟨_, hname, Speaker.speakWithImage_eq_ok_iff.mpr ⟨htext, by rw [if_neg himage]⟩⟩

theorem ofMembers_eq_ok_iff_spoken : ofMembers ms = .ok line ↔ Spoken ms line :=
  ofMembers_eq_ok_iff.trans spoken_iff.symm

/-- The order of the members makes no difference to a line that is spoken. -/
theorem spoken_iff_of_perm {ns : List (String × String)} (hperm : ms.Perm ns) :
    Spoken ms line ↔ Spoken ns line := by
  rw [spoken_iff, spoken_iff]
  exact and_congr_right fun _ => ⟨hperm.symm.trans, hperm.trans⟩

/-! Faults -/

theorem images_append_singleton (ms : List (String × String)) {m : String × String} :
    images (ms ++ [m]) = if m.1 = "image" then images ms ++ [m] else images ms := by
  by_cases h : m.1 = "image" <;> simp [images, h]

theorem speeches_append_singleton (ms : List (String × String)) {m : String × String} :
    speeches (ms ++ [m]) = if m.1 = "image" then speeches ms else speeches ms ++ [m] := by
  by_cases h : m.1 = "image" <;> simp [speeches, h]

/-- A further member stays single when there is none of its sort. -/
theorem single_append_singleton_iff {m : String × String} :
    Single (ms ++ [m]) ↔
      Single ms ∧ if m.1 = "image" then images ms = [] else speeches ms = [] := by
  simp only [Single, images_append_singleton, speeches_append_singleton]
  by_cases h : m.1 = "image"
  · simp only [h, if_true, List.length_append, List.length_singleton, ← List.length_eq_zero_iff]
    omega
  · simp only [h, if_false, List.length_append, List.length_singleton, ← List.length_eq_zero_iff]
    omega

def gathered (ms : List (String × String)) : LineDraft :=
  ⟨(speeches ms).head?, (images ms).head?.map Prod.snd⟩

theorem add_gathered {m : String × String} (h : Single (ms ++ [m])) :
    (gathered ms).add m.1 m.2 = .ok (gathered (ms ++ [m])) := by
  have hfits := (single_append_singleton_iff.mp h).2
  rw [gathered, gathered, images_append_singleton, speeches_append_singleton, LineDraft.add]
  by_cases hkey : m.1 = "image"
  · rw [if_pos hkey] at hfits
    simp [imageKey, hkey, hfits]
  · rw [if_neg hkey] at hfits
    simp [imageKey, hkey, hfits]

/-- Members that are single of their sorts are all taken in, in any order. -/
theorem foldlM_add_of_single (h : Single ms) :
    ms.foldlM (fun draft m => draft.add m.1 m.2) ({} : LineDraft) = .ok (gathered ms) := by
  induction ms using List.reverseRecOn with
  | nil => rfl
  | append_singleton ms m ih =>
    rw [List.foldlM_append, ih (single_append_singleton_iff.mp h).1]
    exact (bind_pure _).trans (add_gathered h)

/-- When no member is one too many, what is missing or empty decides. -/
theorem ofMembers_of_single (h : Single ms) : ofMembers ms = (gathered ms).finish := by
  rw [ofMembers, foldlM_add_of_single h]
  rfl

/-- What stands behind a member that cannot be taken in does not count. -/
theorem ofMembers_of_add_eq_error {before after : List (String × String)} {m : String × String}
    {fault : LineFault} (h : Single before)
    (hadd : (gathered before).add m.1 m.2 = .error fault) :
    ofMembers (before ++ m :: after) = .error fault := by
  have hstop : (m :: after).foldlM (fun draft m => draft.add m.1 m.2) (gathered before) =
      .error fault := by
    rw [List.foldlM_cons, hadd]
    rfl
  rw [ofMembers, List.foldlM_append, foldlM_add_of_single h]
  exact congrArg (· >>= LineDraft.finish) hstop

/-- What is reported is what the members are refused for. -/
theorem FirstFault.exists_fault {what : Unsuitable} (h : FirstFault ms what) :
    ∃ fault, ofMembers ms = .error fault ∧ fault.toUnsuitable = what := by
  cases h with
  | repeatedImage hms hbefore himage =>
    refine ⟨.repeatedImage, ?_, rfl⟩
    rw [hms]
    apply ofMembers_of_add_eq_error hbefore
    obtain ⟨m, images', heq⟩ := List.exists_cons_of_ne_nil himage
    simp [LineDraft.add, gathered, heq, imageKey]
  | severalSpeakers hms hbefore hkey hfirst =>
    refine ⟨.severalSpeakers _ _, ?_, rfl⟩
    rw [hms]
    apply ofMembers_of_add_eq_error hbefore
    simp [LineDraft.add, gathered, hkey, hfirst, imageKey]
  | noSpeaker hms hnone =>
    refine ⟨.noSpeaker, ?_, rfl⟩
    rw [ofMembers_of_single hms]
    simp [LineDraft.finish, gathered, hnone]
  | emptySpeaker hms hsole =>
    refine ⟨.emptySpeaker, ?_, rfl⟩
    rw [ofMembers_of_single hms]
    simp [LineDraft.finish, gathered, hsole]
  | emptyText hms hsole hname =>
    refine ⟨.emptyText _, ?_, rfl⟩
    rw [ofMembers_of_single hms]
    simp [LineDraft.finish, gathered, hsole, hname]
  | emptyImage hms hsole hname htext himage =>
    refine ⟨.emptyImage _, ?_, rfl⟩
    rw [ofMembers_of_single hms]
    simp [LineDraft.finish, gathered, hsole, hname, htext, himage]

/-- Members that are not single have a first one that is the second of its sort. -/
theorem exists_second (h : ¬Single ms) :
    ∃ before m after, ms = before ++ m :: after ∧ Single before ∧ ¬Single (before ++ [m]) := by
  induction ms using List.reverseRecOn with
  | nil => exact absurd (by simp [Single, images, speeches]) h
  | append_singleton ms m ih =>
    by_cases hms : Single ms
    · exact ⟨ms, m, [], rfl, hms, h⟩
    · obtain ⟨before, second, after, heq, hbefore, hsecond⟩ := ih hms
      exact ⟨before, second, after ++ [m], by simp [heq], hbefore, hsecond⟩

/-- There is an earliest member that is the second of its sort. -/
theorem exists_firstFault_of_not_single (h : ¬Single ms) : ∃ what, FirstFault ms what := by
  obtain ⟨before, ⟨key, value⟩, after, hms, hbefore, hsecond⟩ := exists_second h
  rw [single_append_singleton_iff, not_and] at hsecond
  have hfits := hsecond hbefore
  by_cases hkey : key = "image"
  · rw [if_pos hkey] at hfits
    exact ⟨_, .repeatedImage (hkey ▸ hms) hbefore hfits⟩
  · rw [if_neg hkey] at hfits
    obtain ⟨⟨first, text⟩, others, heq⟩ := List.exists_cons_of_ne_nil hfits
    obtain rfl : others = [] := by simpa [heq] using hbefore.2
    exact ⟨_, .severalSpeakers hms hbefore hkey heq⟩

theorem image_gathered_ne (h : Single ms) (himage : images ms ≠ [("image", "")]) :
    (gathered ms).image ≠ some "" := by
  intro hempty
  rw [gathered, Option.map_eq_some_iff] at hempty
  obtain ⟨m, hhead, hvalue⟩ := hempty
  have hkey : m.1 = "image" := by
    simpa [images] using (List.mem_filter.mp (List.mem_of_mem_head? hhead)).2
  obtain ⟨others, heq⟩ := List.head?_eq_some_iff.mp hhead
  obtain rfl : others = [] := by simpa [heq] using h.1
  exact himage (by rw [heq, ← hkey, ← hvalue])

/-- Whatever the members are, they are read as a line or have a first fault. -/
theorem spoken_or_firstFault (ms : List (String × String)) :
    (∃ line, Spoken ms line) ∨ ∃ what, FirstFault ms what := by
  by_cases h : Single ms
  · cases hsole : speeches ms with
    | nil => exact .inr ⟨_, .noSpeaker h hsole⟩
    | cons m others =>
      obtain ⟨name, text⟩ := m
      obtain rfl : others = [] := by simpa [hsole] using h.2
      by_cases hname : name = ""
      · exact .inr ⟨_, .emptySpeaker h (hname ▸ hsole)⟩
      by_cases htext : text = ""
      · exact .inr ⟨_, .emptyText h (htext ▸ hsole) hname⟩
      by_cases himage : images ms = [("image", "")]
      · exact .inr ⟨_, .emptyImage h hsole hname htext himage⟩
      · have hspoken : (gathered ms).spoken = some (name, text) := by rw [gathered, hsole]; rfl
        have hfinish : (gathered ms).finish = .ok ⟨name, text, (gathered ms).image⟩ := by
          simp [LineDraft.finish, hspoken, hname, htext, image_gathered_ne h himage]
        exact .inl ⟨_, ofMembers_eq_ok_iff_spoken.mp ((ofMembers_of_single h).trans hfinish)⟩
  · exact .inr (exists_firstFault_of_not_single h)

/-! Reading -/

def objectOf (ms : List (String × String)) : Json := .object (ms.map fun m => (m.1, .string m.2))

/-- Such an object is never nested too deep to be read. -/
theorem depth_objectOf (ms : List (String × String)) : (objectOf ms).depth ≤ depthLimit := by
  have hmembers : membersDepth (ms.map fun m => (m.1, .string m.2)) = 0 := by
    induction ms with
    | nil => rfl
    | cons m ms ih => simp [membersDepth, Json.depth, ih]
  simp [objectOf, Json.depth, hmembers, depthLimit]

/-- An object of texts is read as its members make a line. -/
theorem fromValue_objectOf (ms : List (String × String)) :
    Line.reader.fromValue (objectOf ms) = (ofMembers ms).mapError LineFault.toUnsuitable := by
  rw [ofMembers, mapError_bind, mapError_foldlM]
  simp only [objectOf, Line.reader, Reader.entries, List.foldlM_map]
  rfl

/-- The reader of lines agrees with the speakers on every object of texts, in whatever order these
stand and however often their keys occur. From a text of the object, and from the object itself,
it reads the line that a speaker speaks, for which the order does not matter; where no line is
spoken there is a first fault, which is what it reports. -/
theorem reader_agrees (ms : List (String × String)) (text : String)
    (htext : Padded (IsText (objectOf ms)) text.toList) :
    (∀ line, Line.reader.parse text = .ok line ↔ Spoken ms line) ∧
    (∀ line, Line.reader.fromValue (objectOf ms) = .ok line ↔ Spoken ms line) ∧
    (∀ line ns, ms.Perm ns → (Spoken ms line ↔ Spoken ns line)) ∧
    ((∃ line, Spoken ms line) ∨ ∃ what, FirstFault ms what) ∧
    (∀ what, FirstFault ms what →
      (∃ position, Line.reader.parse text = .error ⟨.unsuitable what, position⟩) ∧
      Line.reader.fromValue (objectOf ms) = .error what) ∧
    (Unsuitable.repeatedField "image").message = "duplicate field `image`" ∧
    ∀ reason, (Unsuitable.rejected reason).message = reason := by
  have hvalue (line : Line) :
      Line.reader.fromValue (objectOf ms) = .ok line ↔ Spoken ms line := by
    rw [fromValue_objectOf, mapError_eq_ok_iff, ofMembers_eq_ok_iff_spoken]
  have hparse := exact_reader.parse_eq htext (depth_objectOf ms)
  refine ⟨fun line => ?_, hvalue, fun line ns => spoken_iff_of_perm, spoken_or_firstFault ms,
    fun what hfault => ?_, by decide, fun reason => rfl⟩
  · rw [← hvalue, ← mapError_eq_ok_iff, hparse, mapError_eq_ok_iff]
  · obtain ⟨fault, hrefused, rfl⟩ := hfault.exists_fault
    have herror : Line.reader.fromValue (objectOf ms) = .error fault.toUnsuitable := by
      rw [fromValue_objectOf, hrefused]
      rfl
    exact ⟨exact_reader.exists_parse_eq_error htext (depth_objectOf ms) herror, herror⟩

/-- The second image counts, although there is an empty text before it and a second speaker behind
it. -/
theorem reader_agrees_secondImage :
    ∃ position, Line.reader.parse
        "\x7b\"image\":\"\",\"Ann\":\"\",\"image\":\"wave\",\"Bob\":\"Hi\"\x7d" =
      .error ⟨.unsuitable (.repeatedField "image"), position⟩ := by
  have htext : Padded
      (IsText (objectOf [("image", ""), ("Ann", ""), ("image", "wave"), ("Bob", "Hi")]))
      "\x7b\"image\":\"\",\"Ann\":\"\",\"image\":\"wave\",\"Bob\":\"Hi\"\x7d".toList := by
    refine padded_self ⟨_, _, _, padded_self (spellsString_stringLiteral "image"),
      padded_self (spellsString_stringLiteral ""), ⟨_, _, _,
      padded_self (spellsString_stringLiteral "Ann"),
      padded_self (spellsString_stringLiteral ""), ⟨_, _, _,
      padded_self (spellsString_stringLiteral "image"),
      padded_self (spellsString_stringLiteral "wave"), ⟨_, _, _,
      padded_self (spellsString_stringLiteral "Bob"),
      padded_self (spellsString_stringLiteral "Hi"), rfl, rfl⟩, rfl⟩, rfl⟩, ?_⟩
    decide +kernel
  have hbefore : Single [("image", ""), ("Ann", "")] := by decide
  have hfault : FirstFault ([("image", ""), ("Ann", "")] ++ ("image", "wave") :: [("Bob", "Hi")])
      (.repeatedField "image") :=
    .repeatedImage rfl hbefore (by decide)
  exact ((reader_agrees _ _ htext).2.2.2.2.1 _ hfault).1

end Line

end SceneScript
