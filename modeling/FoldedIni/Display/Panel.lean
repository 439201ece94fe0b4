import FoldedIni.Display.Wrap

/-!
# Panels

A panel is a box with its title in the upper edge. Its content is neither wrapped
nor cut off.
-/

set_option autoImplicit false

namespace FoldedIni.Display

/-- The width of everything that is printed. -/
def pageWidth : Nat := 160

/-- A title takes one line, with a blank at either side. -/
def panelTitle (title : List Char) : List Char :=
  ' ' :: Text.expandTabs 8 0 (title.map fun c => if c == '\n' then ' ' else c) ++ [' ']

def panel (width : Nat) (title : List Char) (content : List (List Char)) : List (List Char) :=
  ['╭' :: center '─' (width - 2) (panelTitle title) ++ ['╮']] ++
    content.map (fun line => '│' :: ' ' :: padEnd (width - 4) line ++ [' ', '│']) ++
    ['╰' :: List.replicate (width - 2) '─' ++ ['╯']]

def fittedPanel (title content : List Char) : List (List Char) :=
  panel (max (title.length + 6) (content.length + 4)) title [content]

/-- The lines of a text behind their numbers. Line breaks at the end do not count.
Every kind of line break begins a line, but the column of the numbers is as wide as
the line feeds alone ask for. -/
def numbered (s : List Char) : List (List Char) :=
  let s := (s.reverse.dropWhile fun c => c == '\r' || c == '\n').reverse
  let width := (toString (s.count '\n' + 1)).length
  let shown := (Text.unifyBreaks (Text.expandTabs 4 0 s)).filter Text.isPrinted
  ((Text.splitLines shown).zipIdx 1).map fun (line, n) =>
    ' ' :: ' ' :: padStart width (toString n).toList ++ ' ' :: line

end FoldedIni.Display
