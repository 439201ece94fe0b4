/-!
# Reading positions

A document is read from a position, which knows the characters to come and where
they stand: their offset, line and column. Lines and columns are counted from
nought, and a byte order mark takes no column.
-/

set_option autoImplicit false

namespace FoldedIni.Yaml

/-- Why a document is not read. -/
inductive Fault where
  /-- The text is no document, or no single one. -/
  | malformed
  /-- The key of a map holds a list or a map. -/
  | unhashable
  /-- A scalar is tagged as a number and is none. -/
  | notNumber
  /-- A scalar is tagged as a truth value and is none. -/
  | notTruth
  deriving DecidableEq, Repr

/-- Line breaks: the line feed, the next-line character, and the two separators. -/
def isBreak (c : Char) : Bool := c == '\n' || c == '\x85' || c == '\u2028' || c == '\u2029'

/-- The end of the document, or one of the first two line breaks. -/
def endsLine : Option Char → Bool
  | none => true
  | some c => c == '\n' || c == '\x85'

/-- What may stand behind an indicator: a blank or the end of the line. -/
def endsWord : Option Char → Bool
  | none => true
  | some c => c == ' ' || c == '\t' || endsLine (some c)

/-- What a line break stands for: the first two stand for a line feed. -/
def breakMeaning (c : Char) : Char := if c == '\x85' then '\n' else c

/-- Do the characters begin with a document marker, three of `c`? -/
def startsMarker (c : Char) : List Char → Bool
  | a :: b :: d :: rest => a == c && b == c && d == c && endsWord rest.head?
  | _ => false

def startsAnyMarker (s : List Char) : Bool := startsMarker '-' s || startsMarker '.' s

/-- A position in a document. -/
structure Source where
  rest : List Char
  index : Nat
  line : Nat
  column : Nat
  deriving Repr

namespace Source

def ofText (s : List Char) : Source := ⟨s, 0, 0, 0⟩

def peek (s : Source) : Option Char := s.rest.head?

def peekNext (s : Source) : Option Char := s.rest.tail.head?

def next (s : Source) : Source :=
  match s.rest with
  | [] => s
  | c :: rest =>
    if isBreak c then ⟨rest, s.index + 1, s.line + 1, 0⟩
    else ⟨rest, s.index + 1, s.line, if c == '\ufeff' then s.column else s.column + 1⟩

def advance : Nat → Source → Source
  | 0, s => s
  | n + 1, s => advance n s.next

/-- The position at which exactly `rest` is to come. -/
def advanceTo (rest : List Char) (s : Source) : Source :=
  s.advance (s.rest.length - rest.length)

def skip (p : Char → Bool) (s : Source) : Source := s.advance (s.rest.takeWhile p).length

def skipLine (s : Source) : Source := s.skip fun c => !endsLine (some c)

end Source

end FoldedIni.Yaml
