import FoldedIni.Text.Ranges

/-!
# Blank characters

The characters that count as blank around numbers, between words and at the ends
of a text: every kind of space, the line breaks, and the separators.
-/

set_option autoImplicit false

namespace FoldedIni.Text

def blanks : Ranges :=
  [(0x9, 0xD), (0x1C, 0x20), (0x85, 0x85), (0xA0, 0xA0), (0x1680, 0x1680), (0x2000, 0x200A),
   (0x2028, 0x2029), (0x202F, 0x202F), (0x205F, 0x205F), (0x3000, 0x3000)]

def isBlank (c : Char) : Bool := blanks.has c

def trimEnd (s : List Char) : List Char := (s.reverse.dropWhile isBlank).reverse

/-- Leaves off the blanks at both ends. -/
def trim (s : List Char) : List Char := trimEnd (s.dropWhile isBlank)

end FoldedIni.Text
