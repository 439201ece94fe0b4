import FoldedIni.Bytes
import FoldedIni.Text.Printable

/-!
# Quoted literals

Texts and byte strings are shown in messages, tables and journals as literals
between quotes. Single quotes are used unless they alone occur in the text; a
backslash stands before what cannot be shown as it is.
-/

set_option autoImplicit false

namespace FoldedIni

namespace Text

/-- The digits of `n` to base sixteen, at least `width` of them. -/
def hexDigits (width n : Nat) : List Char :=
  let digits := Nat.toDigits 16 n
  List.replicate (width - digits.length) '0' ++ digits

/-- The quote for a literal in which these characters occur. -/
def quoteFor (s : List Char) : Char :=
  if s.contains '\'' && !s.contains '"' then '"' else '\''

/-- One character of a literal. What `shown` refuses is written by its code. -/
def escapeChar (shown : Char → Bool) (quote c : Char) : List Char :=
  if c == '\\' || c == quote then ['\\', c]
  else if c == '\n' then ['\\', 'n']
  else if c == '\r' then ['\\', 'r']
  else if c == '\t' then ['\\', 't']
  else if shown c then [c]
  else if c.toNat < 0x100 then '\\' :: 'x' :: hexDigits 2 c.toNat
  else if c.toNat < 0x10000 then '\\' :: 'u' :: hexDigits 4 c.toNat
  else '\\' :: 'U' :: hexDigits 8 c.toNat

def quoteChars (shown : Char → Bool) (s : List Char) : List Char :=
  let quote := quoteFor s
  quote :: (s.flatMap (escapeChar shown quote) ++ [quote])

/-- A text as a literal: every printable character stands for itself. -/
def quote (s : String) : String := String.ofList (quoteChars isPrintable s.toList)

end Text

namespace Bytes

/-- One character for each byte, of the same code. -/
def toChars (s : Bytes) : List Char := s.map fun b => Char.ofNat b.toNat

def isVisible (c : Char) : Bool := 0x20 ≤ c.toNat && c.toNat < 0x7F

/-- A byte string as a literal: all but printable ASCII is written by its code. -/
def quote (s : Bytes) : String :=
  String.ofList ('b' :: Text.quoteChars isVisible s.toChars)

end Bytes

end FoldedIni
