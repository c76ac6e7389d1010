/-!
Reading bytes as UTF-8 where they may not be UTF-8 at all.
-/
namespace SceneScript.Text

/-- What a first byte announces: the number of bytes that follow it, and the values that the
first of these may have. -/
structure Lead where
  following : Nat
  low : Nat
  high : Nat

/-- First bytes of the forms longer than one byte; overlong forms, surrogates and numbers above
the last code point are ruled out by the range of the second byte. -/
def leadOf (b : Nat) : Option Lead :=
  if 0xC2 ≤ b ∧ b ≤ 0xDF then some ⟨1, 0x80, 0xBF⟩
  else if b = 0xE0 then some ⟨2, 0xA0, 0xBF⟩
  else if b = 0xED then some ⟨2, 0x80, 0x9F⟩
  else if 0xE1 ≤ b ∧ b ≤ 0xEF then some ⟨2, 0x80, 0xBF⟩
  else if b = 0xF0 then some ⟨3, 0x90, 0xBF⟩
  else if 0xF1 ≤ b ∧ b ≤ 0xF3 then some ⟨3, 0x80, 0xBF⟩
  else if b = 0xF4 then some ⟨3, 0x80, 0x8F⟩
  else none

/-- A character under way: its bits so far, and what is still to come. -/
structure Pending where
  bits : Nat
  lead : Lead

def replacement : Char := Char.ofNat 0xFFFD

def startChar (b : Nat) : List Char × Option Pending :=
  if b < 0x80 then ([Char.ofNat b], none)
  else match leadOf b with
    | some lead => ([], some ⟨b % Nat.pow 2 (6 - lead.following), lead⟩)
    | none => ([replacement], none)

/-- A sequence that breaks off, and a byte that can stand nowhere, each become one replacement
character; the byte that broke the sequence off is read anew. -/
def decodeBytes : Option Pending → List Nat → List Char
  | none, [] => []
  | some _, [] => [replacement]
  | none, b :: rest =>
    let (chars, pending) := startChar b
    chars ++ decodeBytes pending rest
  | some p, b :: rest =>
    if p.lead.low ≤ b ∧ b ≤ p.lead.high then
      let bits := p.bits * 64 + (b - 0x80)
      if p.lead.following = 1 then Char.ofNat bits :: decodeBytes none rest
      else decodeBytes (some ⟨bits, p.lead.following - 1, 0x80, 0xBF⟩) rest
    else
      let (chars, pending) := startChar b
      replacement :: chars ++ decodeBytes pending rest

def decodeLossy (bytes : ByteArray) : String :=
  String.ofList (decodeBytes none (bytes.toList.map UInt8.toNat))

end SceneScript.Text
