import FoldedIni.Text.Blank

/-!
# Reading integers

An integer is an optional sign and digits, between which single underscores may
stand, and blanks around it do not count. The decimal digits of every script are
read, up to a number of digits. No such limit is put on the numbers that are printed.
-/

set_option autoImplicit false

namespace FoldedIni.Number

open Text (trim)

/-- The noughts of the scripts that have decimal digits. The nine other digits follow each. -/
def noughts : List Nat :=
  [0x30, 0x660, 0x6F0, 0x7C0, 0x966, 0x9E6, 0xA66, 0xAE6, 0xB66, 0xBE6, 0xC66, 0xCE6, 0xD66,
   0xDE6, 0xE50, 0xED0, 0xF20, 0x1040, 0x1090, 0x17E0, 0x1810, 0x1946, 0x19D0, 0x1A80, 0x1A90,
   0x1B50, 0x1BB0, 0x1C40, 0x1C50, 0xA620, 0xA8D0, 0xA900, 0xA9D0, 0xA9F0, 0xAA50, 0xABF0,
   0xFF10, 0x104A0, 0x10D30, 0x11066, 0x110F0, 0x11136, 0x111D0, 0x112F0, 0x11450, 0x114D0,
   0x11650, 0x116C0, 0x11730, 0x118E0, 0x11950, 0x11C50, 0x11D50, 0x11DA0, 0x16A60, 0x16AC0,
   0x16B50, 0x1D7CE, 0x1D7D8, 0x1D7E2, 0x1D7EC, 0x1D7F6, 0x1E140, 0x1E2F0, 0x1E950, 0x1FBF0]

def digit? (c : Char) : Option Nat :=
  (noughts.find? fun z => z ≤ c.toNat && c.toNat < z + 10).map (c.toNat - ·)

/-- The digits of a number, the first of which has to come next. -/
def digits? : List Char → Option (List Nat)
  | [] => none
  | c :: rest =>
    match digit? c, rest with
    | some d, [] => some [d]
    | some d, '_' :: more => (digits? more).map (d :: ·)
    | some d, more => (digits? more).map (d :: ·)
    | none, _ => none

/-- The most digits that a number may have. -/
def mostDigits : Nat := 4300

def ofDigits (digits : List Nat) : Nat := digits.foldl (fun n d => n * 10 + d) 0

def natural? (s : List Char) : Option Nat :=
  match digits? s with
  | none => none
  | some digits => if mostDigits < digits.length then none else some (ofDigits digits)

def integer? (s : String) : Option Int :=
  match trim s.toList with
  | '-' :: rest => (natural? rest).map fun n => -(n : Int)
  | '+' :: rest => (natural? rest).map Int.ofNat
  | rest => (natural? rest).map Int.ofNat

end FoldedIni.Number
