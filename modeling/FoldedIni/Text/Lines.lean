/-!
# Lines of text

Line breaks, tabs, and the control characters that are never printed.
-/

set_option autoImplicit false

namespace FoldedIni.Text

/-- Line breaks of every system as line feeds. -/
def unifyBreaks : List Char → List Char
  | [] => []
  | '\r' :: '\n' :: rest => '\n' :: unifyBreaks rest
  | '\r' :: rest => '\n' :: unifyBreaks rest
  | c :: rest => c :: unifyBreaks rest

def splitLines : List Char → List (List Char)
  | [] => [[]]
  | c :: rest =>
    match splitLines rest with
    | [] => [[]]
    | line :: lines => if c == '\n' then [] :: line :: lines else (c :: line) :: lines

/-- Puts spaces for each tab, up to the next column that `size` divides. -/
def expandTabs (size : Nat) : (column : Nat) → List Char → List Char
  | _, [] => []
  | column, c :: rest =>
    if c == '\t' then
      let gap := size - column % size
      List.replicate gap ' ' ++ expandTabs size (column + gap) rest
    else if c == '\n' || c == '\r' then c :: expandTabs size 0 rest
    else c :: expandTabs size (column + 1) rest

/-- The bell, the backspace and the vertical moves are not printed. -/
def isPrinted (c : Char) : Bool := !(['\x07', '\x08', '\x0b', '\x0c', '\r'].contains c)

end FoldedIni.Text
