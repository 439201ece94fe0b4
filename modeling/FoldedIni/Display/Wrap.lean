import FoldedIni.Text.Blank
import FoldedIni.Text.Lines

/-!
# Wrapping and aligning

Lines are wrapped between words. A word that is longer than a line begins on a
line of its own and is split. Every character is taken to be one column wide.
-/

set_option autoImplicit false

namespace FoldedIni.Display

/-- Splits a line into words, each with the blanks behind it. Blanks at the start
belong to the first word. -/
def words (s : List Char) : List (List Char) :=
  let lead := s.takeWhile Text.isBlank
  match split (s.drop lead.length) with
  | [] => []
  | first :: rest => (lead ++ first) :: rest
where
  /-- Splits what begins with a word. -/
  split : List Char → List (List Char)
    | [] => []
    | [c] => [[c]]
    | c :: d :: rest =>
      match split (d :: rest) with
      | [] => [[c]]
      | word :: more =>
        if Text.isBlank c && !Text.isBlank d then [c] :: word :: more
        else (c :: word) :: more

def pieces (width : Nat) : (fuel : Nat) → List Char → List (List Char)
  | 0, s => [s]
  | fuel + 1, s =>
    if s.length ≤ width then [s] else s.take width :: pieces width fuel (s.drop width)

/-- Fills lines with words, the first of which goes behind `line` if it fits. -/
def fillFrom (width : Nat) (line : List Char) : List (List Char) → List (List Char)
  | [] => [line]
  | word :: rest =>
    let length := (Text.trimEnd word).length
    if line.length + length ≤ width then fillFrom width (line ++ word) rest
    else if width < length then
      let parts := pieces width word.length word
      (if line.isEmpty then [] else [line]) ++ parts.dropLast ++
        fillFrom width (parts.getLast?.getD []) rest
    else line :: fillFrom width word rest

/-- Leaves off blanks at the end that are beyond the width. -/
def trimBeyond (width : Nat) (s : List Char) : List Char :=
  let blank := s.length - (Text.trimEnd s).length
  s.take (s.length - min blank (s.length - width))

/-- Wraps one line. A line without words is left as it is. -/
def wrapLine (width : Nat) (s : List Char) : List (List Char) :=
  let s := Text.expandTabs 8 0 s
  let lines := match words s with
    | [] => [s]
    | ws => fillFrom width [] ws
  lines.map (trimBeyond width)

def wrap (width : Nat) (s : List Char) : List (List Char) :=
  (Text.splitLines s).flatMap (wrapLine width)

def padEnd (width : Nat) (s : List Char) : List Char :=
  s ++ List.replicate (width - s.length) ' '

def padStart (width : Nat) (s : List Char) : List Char :=
  List.replicate (width - s.length) ' ' ++ s

/-- Puts `fill` on both sides, the odd one at the end. -/
def center (fill : Char) (width : Nat) (s : List Char) : List Char :=
  let rest := width - s.length
  List.replicate (rest / 2) fill ++ s ++ List.replicate (rest - rest / 2) fill

def printLines (lines : List (List Char)) : String :=
  String.ofList (lines.flatMap (· ++ ['\n']))

end FoldedIni.Display
