import Mathlib.Data.List.Forall2
import SceneScript.Proofs.Json.Members
import SceneScript.Scene.Speaker

/-!
The grammar of documents: which values are scenes, and which scene each of them is. It is said
without a reader and without a writer. The order of members is free everywhere; other members are
passed over in a scene, a choice, settings and an image change, and make an object no line and no
part. Every record but a line has a list form too.
-/
namespace SceneScript

open Json

/-- An object of texts: what is said under the speaker's name, and the image if there is one. -/
inductive IsLine : Json → Line → Prop
  | spoken {speaker text : String} (hspeaker : speaker ≠ "") (hkey : speaker ≠ "image")
      (htext : text ≠ "") :
      IsLine (.object [(speaker, .string text)]) ⟨speaker, text, none⟩
  | shown {speaker text image : String} {ms : List (String × Json)} (hspeaker : speaker ≠ "")
      (hkey : speaker ≠ "image") (htext : text ≠ "") (himage : image ≠ "")
      (hms : ms.Perm [(speaker, .string text), ("image", .string image)]) :
      IsLine (.object ms) ⟨speaker, text, some image⟩

def IsBlock (v : Json) (lines : List Line) : Prop :=
  ∃ items, v = .array items ∧ List.Forall₂ IsLine items lines

inductive IsChoice : Json → Choice → Prop
  | object {name : String} {block : Json} {lines : List Line} {ms : List (String × Json)}
      (hname : Sole ms "name" (.string name)) (hne : name ≠ "")
      (hdialogue : Sole ms "dialogue" block) (hblock : IsBlock block lines) :
      IsChoice (.object ms) ⟨name, lines⟩
  | list {name : String} {block : Json} {lines : List Line} (hne : name ≠ "")
      (hblock : IsBlock block lines) : IsChoice (.array [.string name, block]) ⟨name, lines⟩

def IsChoices (v : Json) (choices : List Choice) : Prop :=
  ∃ items, v = .array items ∧ List.Forall₂ IsChoice items choices

inductive IsFlag : Json → Bool → Prop
  | yes : IsFlag (.string "true") true
  | no : IsFlag (.string "false") false

inductive IsSettings : Json → Bool → Prop
  | object {v : Json} {flag : Bool} {ms : List (String × Json)} (hwait : Sole ms "waitForAll" v)
      (hflag : IsFlag v flag) : IsSettings (.object ms) flag
  | list {v : Json} {flag : Bool} (hflag : IsFlag v flag) : IsSettings (.array [v]) flag

/-- A path that may be left out; it is empty then. -/
def IsPath (ms : List (String × Json)) (key path : String) : Prop :=
  Sole ms key (.string path) ∨ (Lacks ms key ∧ path = "")

/-- The list form may leave out paths from the end. -/
inductive IsImageChange : Json → ImageChange → Prop
  | object {background character : String} {ms : List (String × Json)}
      (hbackground : IsPath ms "backgroundImage" background)
      (hcharacter : IsPath ms "characterImage" character) :
      IsImageChange (.object ms) ⟨background, character⟩
  | neither : IsImageChange (.array []) ⟨"", ""⟩
  | first {background : String} : IsImageChange (.array [.string background]) ⟨background, ""⟩
  | both {background character : String} :
      IsImageChange (.array [.string background, .string character]) ⟨background, character⟩

/-- The members of a part beside its kind, in the order of the list form. -/
inductive IsPayload : List (String × Json) → Part → Prop
  | dialogue {v : Json} {lines : List Line} (hblock : IsBlock v lines) :
      IsPayload [("dialogue", v)] (.dialogue lines)
  | branch {v w : Json} {choices : List Choice} {flag : Bool} (hchoices : IsChoices v choices)
      (hsettings : IsSettings w flag) :
      IsPayload [("branch", v), ("options", w)] (.branch choices flag)
  | imageChange {v : Json} {change : ImageChange} (hchange : IsImageChange v change) :
      IsPayload [("imageChangeRequest", v)] (.imageChange change)

/-- The kind and the payload of that kind, with nothing beside them. -/
inductive IsPart : Json → Part → Prop
  | object {payload ms : List (String × Json)} {part : Part} (hpayload : IsPayload payload part)
      (hms : ms.Perm (("kind", .string part.kind.tag) :: payload)) : IsPart (.object ms) part
  | list {payload : List (String × Json)} {part : Part} (hpayload : IsPayload payload part) :
      IsPart (.array (.string part.kind.tag :: payload.map Prod.snd)) part

/-- A document never tells an output path. -/
inductive IsScene : Json → Scene → Prop
  | object {version : String} {items : List Json} {parts : List Part}
      {ms : List (String × Json)} (hversion : Sole ms "version" (.string version))
      (hparts : Sole ms "parts" (.array items)) (hitems : List.Forall₂ IsPart items parts) :
      IsScene (.object ms) ⟨version, parts, none⟩
  | list {version : String} {items : List Json} {parts : List Part}
      (hitems : List.Forall₂ IsPart items parts) :
      IsScene (.array [.string version, .array items]) ⟨version, parts, none⟩

end SceneScript
