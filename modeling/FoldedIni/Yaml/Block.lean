import FoldedIni.Yaml.Scalar

/-!
# Block scalars

A block scalar is a header and the indented lines below it. The header may fix
the indentation and says what becomes of the line breaks at the end: one is kept
unless the header asks for all or none.
-/

set_option autoImplicit false

namespace FoldedIni.Yaml

inductive Chomping where
  | clip
  | keep
  | strip
  deriving DecidableEq, Repr

structure BlockHeader where
  chomping : Chomping
  indentation : Option Nat

def chompingOf : List Char → Chomping × List Char
  | '+' :: rest => (.keep, rest)
  | '-' :: rest => (.strip, rest)
  | rest => (.clip, rest)

def indentationOf : List Char → Except Fault (Option Nat × List Char)
  | c :: rest =>
    if c == '0' then .error .malformed
    else if c.isDigit then .ok (some (c.toNat - 48), rest)
    else .ok (none, c :: rest)
  | [] => .ok (none, [])

/-- Reads the rest of a header line: blanks, a comment, and the line break. -/
def endOfHeader (s : List Char) : Except Fault (List Char) :=
  let s := s.dropWhile (· == ' ')
  let s := if s.head? == some '#' then s.dropWhile fun c => !endsLine (some c) else s
  match s with
  | [] => .ok []
  | c :: rest => if isBreak c then .ok rest else .error .malformed

def blockHeader (s : List Char) : Except Fault (BlockHeader × List Char) := do
  let (first, s) := chompingOf s
  let (indentation, s) ← indentationOf s
  let (chomping, s) := if first == .clip && indentation.isSome then chompingOf s else (first, s)
  match s with
  | [] => return (⟨chomping, indentation⟩, [])
  | c :: rest =>
    if c == ' ' || isBreak c then return (⟨chomping, indentation⟩, ← endOfHeader (c :: rest))
    else throw .malformed

/-- Skips empty lines and the indentation of the next line, up to `indent`: the
breaks, the column reached, and what is left. -/
def blockBreaks (indent column : Nat) : List Char → List Char × Nat × List Char
  | [] => ([], column, [])
  | c :: rest =>
    if c == ' ' && column < indent then blockBreaks indent (column + 1) rest
    else if isBreak c then
      let (breaks, column, left) := blockBreaks indent 0 rest
      (breakMeaning c :: breaks, column, left)
    else ([], column, c :: rest)

/-- The deepest indentation of the empty lines and the first line with text. -/
def deepest (column best : Nat) : List Char → Nat
  | [] => best
  | c :: rest =>
    if c == ' ' then deepest (column + 1) (max best (column + 1)) rest
    else if isBreak c then deepest 0 best rest
    else best

/-- A line of a block scalar with the empty lines below it. -/
structure BlockLine where
  text : List Char
  broken : Bool
  breaks : List Char

/-- Does the line begin with more indentation? Such lines are not folded. -/
def BlockLine.indented (l : BlockLine) : Bool :=
  match l.text with
  | [] => false
  | c :: _ => c == ' ' || c == '\t'

/-- The lines from a column on. At the top of a document a marker ends them. -/
def blockLines (indent : Nat) (top : Bool) :
    (fuel : Nat) → Nat → List Char → List BlockLine × List Char
  | 0, _, s => ([], s)
  | fuel + 1, column, s =>
    if column ≠ indent || s.isEmpty then ([], s) else
    let text := s.takeWhile fun c => !endsLine (some c)
    match s.dropWhile fun c => !endsLine (some c) with
    | [] => ([⟨text, false, []⟩], [])
    | _ :: below =>
      let (breaks, column, left) := blockBreaks indent 0 below
      if top && column = 0 && startsAnyMarker left then ([⟨text, true, breaks⟩], left)
      else
        let (more, left) := blockLines indent top fuel column left
        (⟨text, true, breaks⟩ :: more, left)

def between (folded : Bool) (l next : BlockLine) : List Char :=
  if folded && !l.indented && !next.indented then
    if l.breaks.isEmpty then [' '] else l.breaks
  else '\n' :: l.breaks

def joinLines (folded : Bool) : List BlockLine → List Char
  | [] => []
  | [l] => l.text
  | l :: next :: rest => l.text ++ between folded l next ++ joinLines folded (next :: rest)

/-- The breaks at the end, of which `own` is that of the last line. -/
def chomp (c : Chomping) (own : Bool) (breaks : List Char) : List Char :=
  match c with
  | .strip => []
  | .clip => if own then ['\n'] else []
  | .keep => if own then '\n' :: breaks else breaks

/-- Reads a block scalar behind its indicator, inside a collection that is
indented by `parent`. -/
def block (folded : Bool) (parent : Int) (s : List Char) :
    Except Fault (List Char × List Char) := do
  let (header, s) ← blockHeader s
  let least := (parent + 1).toNat
  let indent := match header.indentation with
    | none => max least (deepest 0 0 s)
    | some n => max least 1 + n - 1
  let top := header.indentation.isNone && least = 0
  let (lead, column, s) := blockBreaks indent 0 s
  let (lines, left) := blockLines indent top (s.length + 1) column s
  match lines.getLast? with
  | none => return (chomp header.chomping false lead, left)
  | some last =>
    return (lead ++ joinLines folded lines ++ chomp header.chomping last.broken last.breaks, left)

end FoldedIni.Yaml
