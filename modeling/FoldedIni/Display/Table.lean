import FoldedIni.Display.Wrap

/-!
# Tables

A table has a title above it and three columns, each as wide as its longest cell.
Cells are neither wrapped nor cut off, as if no table were wider than the page.
-/

set_option autoImplicit false

namespace FoldedIni.Display

/-- The cells of a row: an index, a length, and bytes. -/
structure Row where
  index : List Char
  length : List Char
  bytes : List Char

def Row.head : Row := ⟨"#".toList, "Length".toList, "Bytes".toList⟩

structure Widths where
  index : Nat
  length : Nat
  bytes : Nat

namespace Widths

/-- Columns in which all rows fit. -/
def ofRows (rows : List Row) : Widths :=
  rows.foldl (fun w r =>
    ⟨max w.index r.index.length, max w.length r.length.length, max w.bytes r.bytes.length⟩)
    ⟨0, 0, 0⟩

/-- The width of the whole table: each column has a blank at either side, and
there are four rules. -/
def total (w : Widths) : Nat := w.index + w.length + w.bytes + 10

def rule (w : Widths) (start line middle stop : Char) : List Char :=
  let dashes (n : Nat) : List Char := List.replicate (n + 2) line
  start :: dashes w.index ++ middle :: dashes w.length ++ middle :: dashes w.bytes ++ [stop]

/-- A row between rules. Numbers stand at the right of their columns. -/
def row (w : Widths) (bar : Char) (r : Row) : List Char :=
  bar :: ' ' :: padStart w.index r.index ++ ' ' :: bar :: ' ' :: padStart w.length r.length ++
    ' ' :: bar :: ' ' :: padEnd w.bytes r.bytes ++ [' ', bar]

end Widths

def table (title : List Char) (rows : List Row) : List (List Char) :=
  let w := Widths.ofRows (.head :: rows)
  ((wrap w.total title).map fun line => center ' ' w.total (Text.trimEnd line)) ++
    [w.rule '┏' '━' '┳' '┓', w.row '┃' .head, w.rule '┡' '━' '╇' '┩'] ++
    rows.map (w.row '│') ++
    [w.rule '└' '─' '┴' '┘']

end FoldedIni.Display
