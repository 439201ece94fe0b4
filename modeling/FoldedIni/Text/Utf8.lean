import FoldedIni.Bytes

/-!
# Texts as bytes

The bytes of a text are its UTF-8 encoding. Reading goes one character at a time;
where no character is encoded, the bytes up to the first one that cannot continue
the character begun are one fault, and strict reading refuses the whole text.
-/

set_option autoImplicit false

namespace FoldedIni.Text

def utf8 (s : String) : Bytes := s.toList.flatMap String.utf8EncodeChar

/-- What the first byte of a character fixes: how many bytes follow it, the bits
it contributes, and the range of the byte after it. -/
structure Lead where
  following : Nat
  bits : Nat
  low : UInt8
  high : UInt8

/-- The first bytes that begin a character. The ranges leave out encodings that
are longer than need be, surrogates, and codes beyond the last one. -/
def lead? (b : UInt8) : Option Lead :=
  if b < 0x80 then some ⟨0, b.toNat, 0, 0⟩
  else if b < 0xC2 then none
  else if b < 0xE0 then some ⟨1, b.toNat - 0xC0, 0x80, 0xBF⟩
  else if b < 0xF0 then
    some ⟨2, b.toNat - 0xE0, if b == 0xE0 then 0xA0 else 0x80, if b == 0xED then 0x9F else 0xBF⟩
  else if b < 0xF5 then
    some ⟨3, b.toNat - 0xF0, if b == 0xF0 then 0x90 else 0x80, if b == 0xF4 then 0x8F else 0xBF⟩
  else none

/-- Reads `n` more bytes of a character, the first of which lies between `low` and
`high`, and counts them. No code comes back if one of them is missing. -/
def continueChar (low high : UInt8) (code : Nat) : (n : Nat) → Bytes → Option Nat × Nat
  | 0, _ => (some code, 0)
  | _ + 1, [] => (none, 0)
  | n + 1, b :: rest =>
    if low ≤ b && b ≤ high then
      let (found, read) := continueChar 0x80 0xBF (code * 64 + (b.toNat - 0x80)) n rest
      (found, read + 1)
    else (none, 0)

def readChar (b : UInt8) (rest : Bytes) : Option Char × Nat :=
  match lead? b with
  | none => (none, 0)
  | some l =>
    let (code, read) := continueChar l.low l.high l.bits l.following rest
    (code.map Char.ofNat, read)

/-- The characters that the bytes encode, and a hole for each fault. -/
def readChars : Bytes → List (Option Char)
  | [] => []
  | b :: rest => (readChar b rest).1 :: readChars (rest.drop (readChar b rest).2)
termination_by s => s.length
decreasing_by simp only [List.length_drop, List.length_cons]; omega

def decode? (s : Bytes) : Option String :=
  ((readChars s).mapM id).map String.ofList

/-- The text that the bytes encode, with a replacement character for each fault. -/
def decodeLossy (s : Bytes) : String :=
  String.ofList ((readChars s).map fun c => c.getD '\ufffd')

end FoldedIni.Text
